import Recode.Lib.Json.RoundTrip

/-! # Indented JSON texts

The text of a value with every item and field on a line of its own, two spaces deeper than
what holds it. It is read back like the text without white space. -/

namespace Json

open List Option

def lineBreak (depth : Nat) : List Char := '\n' :: replicate (2 * depth) ' '

mutual
def indented (depth : Nat) : Json → List Char
  | .arr [] => ['[', ']']
  | .arr (item :: items) =>
    '[' :: lineBreak (depth + 1) ++ indented (depth + 1) item ++ indentedItems depth items
  | .obj [] => ['{', '}']
  | .obj ((key, value) :: fields) =>
    '{' :: lineBreak (depth + 1) ++ quote key ++ ':' :: ' ' :: indented (depth + 1) value ++
      indentedFields depth fields
  | .null => stringify .null
  | .bool value => stringify (.bool value)
  | .num value => stringify (.num value)
  | .str value => stringify (.str value)
/-- The text of an array after its first item. -/
def indentedItems (depth : Nat) : List Json → List Char
  | [] => lineBreak depth ++ [']']
  | item :: items =>
    ',' :: lineBreak (depth + 1) ++ indented (depth + 1) item ++ indentedItems depth items
/-- The text of an object after its first field. -/
def indentedFields (depth : Nat) : List (String × Json) → List Char
  | [] => lineBreak depth ++ ['}']
  | (key, value) :: fields =>
    ',' :: lineBreak (depth + 1) ++ quote key ++ ':' :: ' ' :: indented (depth + 1) value ++
      indentedFields depth fields
end

/-- Every item and field on a line of its own. -/
def lines : Layout where
  gap := lineBreak
  space := [' ']
  gap_blank depth char member := by
    rcases mem_cons.mp member with rfl | spaces
    · rfl
    · rw [eq_of_mem_replicate spaces]
      rfl
  gap_head _ _ head := (some.inj head).symm
  space_blank char member := by
    rw [mem_singleton.mp member]
    rfl

mutual
theorem written_lines (depth : Nat) (value : Json) :
    written lines depth value = indented depth value := by
  match value with
  | .arr [] | .obj [] | .null | .bool _ | .num _ | .str _ => rfl
  | .arr (item :: items) =>
    rw [written, indented, written_lines _ item, writtenItems_lines depth items]
    rfl
  | .obj ((key, value) :: fields) =>
    rw [written, indented, written_lines _ value, writtenFields_lines depth fields]
    simp only [lines, cons_append, nil_append, append_assoc]
theorem writtenItems_lines (depth : Nat) (items : List Json) :
    writtenItems lines depth items = indentedItems depth items := by
  match items with
  | [] => rfl
  | item :: items =>
    rw [writtenItems, indentedItems, written_lines _ item, writtenItems_lines depth items]
    rfl
theorem writtenFields_lines (depth : Nat) (fields : List (String × Json)) :
    writtenFields lines depth fields = indentedFields depth fields := by
  match fields with
  | [] => rfl
  | (key, value) :: fields =>
    rw [writtenFields, indentedFields, written_lines _ value, writtenFields_lines depth fields]
    simp only [lines, cons_append, nil_append, append_assoc]
end

/-- A value is read back from a file that holds its indented text and a line feed. -/
theorem parse_indented {value : Json} (distinct : value.KeysDistinct) :
    parse (indented 0 value ++ ['\n']) = some value := by
  rw [← written_lines]
  have reads : value.ReadsBack lines := readsBack value distinct
  have read := reads 0 ['\n'] ((written lines 0 value ++ ['\n']).length + 1)
    (closes_cons [] (by decide)) (by rw [length_append]; omega)
  rw [parse, read]
  rfl

end Json

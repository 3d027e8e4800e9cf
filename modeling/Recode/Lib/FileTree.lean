import Mathlib.Data.List.Basic

/-! # File trees with symbolic links

Directories, files and symbolic links by their place. A place and a path are lists of names, the
last name first. A path is resolved from the root: a link on the way continues at its target, up
to a number of links, and operations act on what a path leads to or on the entry that it names. -/

/-- A step of a path or of the target of a link. -/
inductive PathPart
  | name (name : String)
  | up
deriving DecidableEq

/-- The target of a link is found from the root or from the directory of the link. -/
structure LinkTarget where
  absolute : Bool
  parts : List PathPart
deriving DecidableEq

inductive FileNode
  | directory
  | file (content : List UInt8)
  | link (target : LinkTarget)
deriving DecidableEq

structure FileTree where
  entries : List (List String × FileNode) := []

/-- Where a path leads: to a directory, to a file, to a name that its directory does not have, or
nowhere. -/
inductive Arrival
  | directory (place : List String)
  | file (place : List String)
  | missing (directory : List String) (name : String)
  | nowhere
deriving DecidableEq

/-- The place of what is found. -/
def Arrival.place? : Arrival → Option (List String)
  | .directory place | .file place => some place
  | .missing _ _ | .nowhere => none

namespace FileTree

open List Option

variable (tree : FileTree)

def node (place : List String) : Option FileNode := tree.entries.lookup place

/-- Go on along the parts of a path, up to the next link. -/
def advance (follow : List String → List PathPart → Arrival) :
    List String → List PathPart → Arrival
  | place, [] => .directory place
  | place, .up :: rest => advance follow place.tail rest
  | place, .name name :: rest =>
    match tree.node (name :: place) with
    | none => if rest = [] then .missing place name else .nowhere
    | some .directory => advance follow (name :: place) rest
    | some (.file _) => if rest = [] then .file (name :: place) else .nowhere
    | some (.link target) =>
      follow (if target.absolute then [] else place) (target.parts ++ rest)

/-- Go along the parts of a path and follow at most some links. -/
def walk : Nat → List String → List PathPart → Arrival
  | 0 => tree.advance fun _ _ => .nowhere
  | links + 1 => tree.advance (walk links)

/-- Where a path leads that starts at the root. -/
def resolve (links : Nat) (path : List String) : Arrival :=
  tree.walk links [] (path.reverse.map .name)

/-- The place of the entry that a path names, which is in the directory that the rest of the path
leads to. -/
def entry (links : Nat) : List String → Option (List String)
  | [] => none
  | name :: rest =>
    match tree.resolve links rest with
    | .directory directory => some (name :: directory)
    | _ => none

def put (place : List String) (node : FileNode) : FileTree where
  entries := (place, node) :: tree.entries.filter (·.1 ≠ place)

def remove (place : List String) : FileTree where
  entries := tree.entries.filter fun found => !(place.isSuffixOf found.1)

def putDirectory (place : List String) : FileTree := (tree.remove place).put place .directory

/-- Everything at a place is moved to another one. -/
def move (source target : List String) : FileTree where
  entries := (tree.remove target).entries.map fun found =>
    if source.isSuffixOf found.1 then
      (found.1.take (found.1.length - source.length) ++ target, found.2)
    else found

/-- A file is written, through links when its path leads through some. The place that was written
is given too. -/
def writeFile (links : Nat) (path : List String) (content : List UInt8) :
    Option (FileTree × List String) :=
  match tree.resolve links path with
  | .file place => some (tree.put place (.file content), place)
  | .missing directory name =>
    some (tree.put (name :: directory) (.file content), name :: directory)
  | _ => none

def readFile (links : Nat) (path : List String) : Option (List UInt8) :=
  match tree.resolve links path with
  | .file place =>
    match tree.node place with
    | some (.file content) => some content
    | _ => none
  | _ => none

/-- A directory is made with those above it that are missing. The place of the directory and the
places that were made are given too. -/
def makeDirectories (links : Nat) : List String →
    Option (FileTree × List String × List (List String))
  | [] => some (tree, [], [])
  | name :: rest =>
    match tree.resolve links (name :: rest) with
    | .directory place => some (tree, place, [])
    | .file _ => none
    | _ =>
      match makeDirectories links rest with
      | none => none
      | some (next, directory, made) =>
        match next.node (name :: directory) with
        | none =>
          some (next.putDirectory (name :: directory), name :: directory,
            made ++ [name :: directory])
        | some _ => none

def removeEntry (links : Nat) (path : List String) (recursive force : Bool) :
    Option (FileTree × List (List String)) :=
  match tree.entry links path with
  | none => if force then some (tree, []) else none
  | some place =>
    match tree.node place with
    | none => if force then some (tree, []) else none
    | some .directory => if recursive then some (tree.remove place, [place]) else none
    | some _ => some (tree.remove place, [place])

def emptyAt (place : List String) : Bool :=
  tree.entries.all fun found => found.1 = place || !(place.isSuffixOf found.1)

/-- An entry may take the place of another one. -/
def replaces : Option FileNode → Option FileNode → Bool → Bool
  | none, _, _ => false
  | some _, none, _ => true
  | some .directory, some .directory, empty => empty
  | some .directory, some _, _ => false
  | some _, some .directory, _ => false
  | some _, some _, _ => true

/-- The entry that a path names gets the name of another path. -/
def rename (links : Nat) (source target : List String) : Option (FileTree × List (List String)) :=
  match tree.entry links source, tree.entry links target with
  | some old, some new =>
    if tree.node old = none then none
    else if old = new then some (tree, [])
    else if old.isSuffixOf new || new.isSuffixOf old then none
    else if replaces (tree.node old) (tree.node new) (tree.emptyAt new) then
      some (tree.move old new, [old, new])
    else none
  | _, _ => none

/-! ## One name more -/

/-- Where a path leads that goes on with a part where another one arrives. -/
def Continues (last : PathPart) : Arrival → Arrival → Prop
  | .directory place, after => ∃ left, after = tree.walk left place [last]
  | _, after => after = .nowhere

variable {tree}

theorem advance_snoc {follow : List String → List PathPart → Arrival} {last : PathPart}
    {links : Nat} (self : tree.advance follow = tree.walk links) (follows : ∀ place parts,
      tree.Continues last (follow place parts) (follow place (parts ++ [last])))
    (parts : List PathPart) (place : List String) :
    tree.Continues last (tree.advance follow place parts)
      (tree.advance follow place (parts ++ [last])) := by
  induction parts generalizing place with
  | nil => exact ⟨links, by rw [self]; rfl⟩
  | cons part rest hypothesis =>
    have more : rest ++ [last] ≠ [] := append_ne_nil_of_right_ne_nil _ (cons_ne_nil _ _)
    cases part with
    | up => exact hypothesis place.tail
    | name name =>
      rw [cons_append]
      unfold advance
      cases tree.node (name :: place) with
      | none =>
        dsimp only
        rw [if_neg more]
        split
        · rfl
        · rfl
      | some node =>
        cases node with
        | directory => exact hypothesis (name :: place)
        | file content =>
          dsimp only
          rw [if_neg more]
          split
          · rfl
          · rfl
        | link target =>
          dsimp only
          rw [← append_assoc]
          exact follows _ _

/-- A longer path arrives where its last part leads from where the shorter one arrives. -/
theorem walk_snoc (links : Nat) (place : List String) (parts : List PathPart) (last : PathPart) :
    tree.Continues last (tree.walk links place parts)
      (tree.walk links place (parts ++ [last])) := by
  induction links generalizing place parts with
  | zero =>
    have self : tree.advance (fun _ _ => .nowhere) = tree.walk 0 := rfl
    exact advance_snoc self (fun _ _ => rfl) parts place
  | succ links hypothesis =>
    have self : tree.advance (tree.walk links) = tree.walk (links + 1) := rfl
    exact advance_snoc self hypothesis parts place

theorem resolve_cons (links : Nat) (name : String) (rest : List String) :
    tree.Continues (.name name) (tree.resolve links rest) (tree.resolve links (name :: rest)) := by
  have split : (name :: rest).reverse.map PathPart.name =
      rest.reverse.map PathPart.name ++ [.name name] := by
    rw [reverse_cons, map_append]
    rfl
  rw [resolve, resolve, split]
  exact walk_snoc ..

theorem walk_name (left : Nat) (directory : List String) (name : String) :
    (tree.node (name :: directory) = none ∧
      tree.walk left directory [.name name] = .missing directory name) ∨
    (tree.node (name :: directory) = some .directory ∧
      tree.walk left directory [.name name] = .directory (name :: directory)) ∨
    (∃ content, tree.node (name :: directory) = some (.file content) ∧
      tree.walk left directory [.name name] = .file (name :: directory)) ∨
    ∃ target, tree.node (name :: directory) = some (.link target) := by
  cases here : tree.node (name :: directory) with
  | none =>
    refine .inl ⟨rfl, ?_⟩
    cases left <;>
    · unfold walk advance
      rw [here]
      exact if_pos rfl
  | some node =>
    cases node with
    | directory =>
      refine .inr (.inl ⟨rfl, ?_⟩)
      cases left <;>
      · unfold walk advance
        rw [here]
        rfl
    | file content =>
      refine .inr (.inr (.inl ⟨content, rfl, ?_⟩))
      cases left <;>
      · unfold walk advance
        rw [here]
        exact if_pos rfl
    | link target => exact .inr (.inr (.inr ⟨target, rfl⟩))

/-- What a path leads to whose entry is not a link. -/
inductive EntryArrival (tree : FileTree) (links : Nat) (path place : List String) : Prop
  | missing (name : String) (directory : List String) (same : place = name :: directory)
      (absent : tree.node place = none)
      (arrives : tree.resolve links path = .missing directory name)
  | found (arrives : (tree.resolve links path).place? = some place)
  | link (target : LinkTarget) (linked : tree.node place = some (.link target))

variable {links : Nat}

/-- An entry is in the directory that the rest of its path leads to. -/
theorem entry_spec {path place : List String} (named : tree.entry links path = some place) :
    (∃ directory, tree.resolve links path.tail = .directory directory ∧
      place.tail = directory) ∧ EntryArrival tree links path place := by
  cases path with
  | nil => cases named
  | cons name rest =>
    have continues := @resolve_cons tree links name rest
    rw [entry] at named
    cases arrives : tree.resolve links rest with
    | directory directory =>
      rw [arrives] at named continues
      cases named
      obtain ⟨left, arrival⟩ := continues
      refine ⟨⟨directory, arrives, rfl⟩, ?_⟩
      rcases @walk_name tree left directory name with
        ⟨absent, goes⟩ | ⟨-, goes⟩ | ⟨content, -, goes⟩ | ⟨target, linked⟩
      · exact .missing name directory rfl absent (arrival.trans goes)
      · exact .found (by rw [arrival, goes]; rfl)
      · exact .found (by rw [arrival, goes]; rfl)
      · exact .link target linked
    | _ =>
      rw [arrives] at named
      cases named

variable {name : String}

theorem entry_of_missing {path directory : List String}
    (arrives : tree.resolve links path = .missing directory name) :
    ∃ place, tree.entry links path = some place ∧
      (place = name :: directory ∨ ∃ target, tree.node place = some (.link target)) := by
  cases path with
  | nil =>
    have root : tree.resolve links [] = .directory [] := by
      cases links <;> rfl
    rw [root] at arrives
    cases arrives
  | cons last rest =>
    have continues := @resolve_cons tree links last rest
    rw [arrives] at continues
    cases before : tree.resolve links rest with
    | directory above =>
      rw [before] at continues
      obtain ⟨left, arrival⟩ := continues
      refine ⟨last :: above, by rw [entry, before], ?_⟩
      rcases @walk_name tree left above last with
        ⟨-, goes⟩ | ⟨-, goes⟩ | ⟨content, -, goes⟩ | ⟨target, linked⟩
      · rw [goes] at arrival
        cases arrival
        exact .inl rfl
      · rw [goes] at arrival
        cases arrival
      · rw [goes] at arrival
        cases arrival
      · exact .inr ⟨target, linked⟩
    | _ =>
      rw [before] at continues
      cases continues

/-- A directory that its path does not lead to is made in the one above it, which is made
first. -/
theorem makeDirectories_of_absent {parent place : List String} {next : FileTree}
    {made : List (List String)} (absent : (tree.resolve links (name :: parent)).place? = none)
    (done : tree.makeDirectories links (name :: parent) = some (next, place, made)) :
    ∃ before directory earlier, tree.makeDirectories links parent =
        some (before, directory, earlier) ∧
      place = name :: directory ∧ made = earlier ++ [name :: directory] := by
  rw [makeDirectories] at done
  cases arrives : tree.resolve links (name :: parent) with
  | directory found =>
    rw [arrives] at absent
    cases absent
  | file found =>
    rw [arrives] at absent
    cases absent
  | _ =>
    rw [arrives] at done
    dsimp only at done
    split at done
    · cases done
    rename_i before directory earlier above
    split at done
    · cases done
      exact ⟨before, directory, earlier, above, rfl, rfl⟩
    · cases done

theorem makeDirectories_of_present {parent place found : List String}
    {next : FileTree} {made : List (List String)}
    (present : (tree.resolve links (name :: parent)).place? = some found)
    (done : tree.makeDirectories links (name :: parent) = some (next, place, made)) :
    place = found ∧ made = [] := by
  rw [makeDirectories] at done
  cases arrives : tree.resolve links (name :: parent) with
  | directory directory =>
    rw [arrives] at present done
    cases present
    cases done
    exact ⟨rfl, rfl⟩
  | file file =>
    rw [arrives] at done
    cases done
  | _ =>
    rw [arrives] at present
    cases present

/-! ## Files that get another content -/

theorem node_put (place other : List String) (node : FileNode) :
    (tree.put place node).node other = if other = place then some node else tree.node other := by
  rw [FileTree.node, put, lookup_cons]
  by_cases same : other = place
  · simp [same]
  rw [if_neg same, beq_false_of_ne same]
  change lookup _ _ = lookup _ _
  induction tree.entries with
  | nil => rfl
  | cons entry entries ih =>
    obtain ⟨own, found⟩ := entry
    by_cases gone : own = place
    · rw [filter_cons_of_neg (by simpa using gone), ih, lookup_cons, beq_false_of_ne (gone ▸ same)]
    · rw [filter_cons_of_pos (by simpa using gone), lookup_cons, lookup_cons, ih]

def shape : FileNode → FileNode
  | .file _ => .file []
  | node => node

theorem advance_congr {after : FileTree} {follow : List String → List PathPart → Arrival}
    (same : ∀ place, (after.node place).map shape = (tree.node place).map shape)
    (parts : List PathPart) (place : List String) :
    after.advance follow place parts = tree.advance follow place parts := by
  induction parts generalizing place with
  | nil => rfl
  | cons part rest ih =>
    cases part with
    | up => exact ih place.tail
    | name name =>
      have here := same (name :: place)
      unfold advance
      cases before : tree.node (name :: place) with
      | none =>
        rw [before, map_none, map_eq_none_iff] at here
        rw [here]
      | some node =>
        rw [before, map_some, map_eq_some_iff] at here
        obtain ⟨now, found, alike⟩ := here
        rw [found]
        cases node <;> cases now <;> cases alike
        · exact ih (name :: place)
        · rfl
        · rfl

/-- Paths lead to the same places when files only get other contents. -/
theorem resolve_congr {after : FileTree}
    (same : ∀ place, (after.node place).map shape = (tree.node place).map shape) (links : Nat) :
    after.resolve links = tree.resolve links := by
  have walks : after.walk links = tree.walk links := by
    induction links with
    | zero => exact funext fun place => funext fun parts => advance_congr same parts place
    | succ links ih =>
      rw [walk, walk, ih]
      exact funext fun place => funext fun parts => advance_congr same parts place
  funext path
  rw [resolve, resolve, walks]

variable {path place : List String} {content : List UInt8}

theorem readFile_eq_some : tree.readFile links path = some content ↔
    ∃ place, tree.resolve links path = .file place ∧ tree.node place = some (.file content) := by
  rw [readFile]
  constructor
  · intro read
    split at read
    · rename_i place arrives
      split at read
      · rename_i found there
        cases read
        exact ⟨place, arrives, there⟩
      · cases read
    · cases read
  · rintro ⟨place, arrives, there⟩
    rw [arrives]
    dsimp only
    rw [there]

theorem put_file (links : Nat) (there : tree.node place = some (.file content))
    (text : List UInt8) :
    (tree.put place (.file text)).resolve links = tree.resolve links ∧
      ∀ other, (tree.put place (.file text)).readFile links other =
        if tree.resolve links other = .file place then some text
        else tree.readFile links other := by
  have same : (tree.put place (.file text)).resolve links = tree.resolve links := by
    apply resolve_congr
    intro other
    rw [node_put]
    split
    · rename_i equal
      rw [equal, there]
      rfl
    · rfl
  refine ⟨same, fun other => ?_⟩
  rw [readFile, same, readFile]
  cases arrives : tree.resolve links other with
  | file found =>
    dsimp only
    rw [node_put]
    by_cases equal : found = place
    · rw [if_pos equal, if_pos (by rw [equal])]
    · rw [if_neg equal, if_neg fun both => equal (Arrival.file.inj both)]
  | _ => rw [if_neg nofun]

end FileTree

import Recode.CodingAgent.SessionManager
import Recode.Lib.Forest

/-! # The tree of a loaded session file

A session file is parsed line by line without validation: identifiers may repeat, and a parent may
be missing, come later, or be the entry itself. The session manager indexes the last entry with an
identifier, walks from an entry along its parents, and builds the tree of all entries. -/

namespace Recode.CodingAgent

open Recode

/-- What a line has as identifier, or as that of its parent: a string, or any other value. Values
that are one key of a map are equal. -/
inductive LoadedId where
  | undefined
  | null
  | text (text : String)
  | other (identity : Nat) (truthy : Bool)
deriving DecidableEq

namespace LoadedId

def truthy : LoadedId → Bool
  | .undefined => false
  | .null => false
  | .text characters => characters ≠ ""
  | .other _ isTruthy => isTruthy

/-- A value that `??` replaces. -/
def nullish : LoadedId → Bool
  | .undefined => true
  | .null => true
  | _ => false

end LoadedId

/-- What the session manager reads of a line of a file. -/
class LoadedLine (Line : Type) (Time : outParam Type) where
  /-- A line with the type of a header is no entry. -/
  isSession : Line → Bool
  id : Line → LoadedId
  parentId : Line → LoadedId
  timestamp : Line → Time
  /-- Where a leaf marker moves the leaf. -/
  leafTarget? : Line → Option LoadedId
  /-- The target of a label and its text. -/
  label? : Line → Option (LoadedId × Option String)
  /-- The first kept entry of a compaction. -/
  compaction? : Line → Option LoadedId
  /-- The thinking level and the model after an entry. -/
  settings : String × Option ModelRef → Line → String × Option ModelRef
  /-- The messages an entry contributes to a context. -/
  messages : Line → List AgentMessage

/-- The indexes over a loaded file. -/
structure LoadedIndex (Line Time : Type) where
  byId : InsertionMap LoadedId Line
  leafId : LoadedId
  labelsById : InsertionMap LoadedId String
  labelTimestampsById : InsertionMap LoadedId Time

/-- A node of the tree without its children. -/
structure SessionTreeNode (Line Time : Type) where
  entry : Line
  label : Option String
  labelTimestamp : Option Time

/-- Where the nodes of a tree hang. -/
structure TreeLinks where
  roots : List LoadedId
  children : LoadedId → List LoadedId

/-- The tree of a session. -/
structure SessionTree (Line Time : Type) where
  nodeMap : InsertionMap LoadedId (SessionTreeNode Line Time)
  links : TreeLinks
  /-- The nodes in the order of the last walk, each as often as the tree contains it. -/
  visited : List LoadedId

section Loaded

variable {Line Time : Type} [LoadedLine Line Time]

open LoadedLine hiding id

/-- The entries of a file. -/
def getEntries (fileEntries : List Line) : List Line :=
  fileEntries.filter fun line => !isSession line

def indexLine (index : LoadedIndex Line Time) (line : Line) : LoadedIndex Line Time :=
  if isSession line then index
  else
    { byId := index.byId.insert (LoadedLine.id line) line
      leafId := (leafTarget? line).getD (LoadedLine.id line)
      labelsById :=
        match label? line with
        | none => index.labelsById
        | some (targetId, label) =>
          match Text.truthy label with
          | some label => index.labelsById.insert targetId label
          | none => index.labelsById.erase targetId
      labelTimestampsById :=
        match label? line with
        | none => index.labelTimestampsById
        | some (targetId, label) =>
          match Text.truthy label with
          | some _ => index.labelTimestampsById.insert targetId (timestamp line)
          | none => index.labelTimestampsById.erase targetId }

def buildLoadedIndex (fileEntries : List Line) : LoadedIndex Line Time :=
  fileEntries.foldl indexLine ⟨.empty, .null, .empty, .empty⟩

/-- Climb along parents that are truthy and found, for at most so many rounds. -/
def climbLoaded (byId : InsertionMap LoadedId Line) : Nat → Option Line → Option (List Line)
  | _, none => some []
  | 0, some _ => none
  | fuel + 1, some current =>
    (climbLoaded byId fuel
      (if (parentId current).truthy then byId.get? (parentId current) else none)).map
        (current :: ·)

namespace LoadedIndex

variable (index : LoadedIndex Line Time) (fuel : Nat)

/-- The branch of an entry, oldest first. -/
def getBranch (fromId : LoadedId) : Option (List Line) :=
  let startId := if fromId.nullish then index.leafId else fromId
  (climbLoaded index.byId fuel
    (if startId.truthy then index.byId.get? startId else none)).map List.reverse

def buildSessionPath (entries : List Line) (leafId : LoadedId) : Option (List Line) :=
  if leafId = .null then some []
  else
    (climbLoaded index.byId fuel ((if leafId.truthy then index.byId.get? leafId else none).or
      entries.getLast?)).map List.reverse

def newestLoadedCompaction (path : List Line) : Option (Line × LoadedId) :=
  path.reverse.findSome? fun entry => (compaction? entry).map fun kept => (entry, kept)

def contextEntries (path : List Line) : List Line :=
  match newestLoadedCompaction path with
  | none => path
  | some (compaction, kept) =>
    let compactionIdx := path.findIdx fun entry => LoadedLine.id entry = LoadedLine.id compaction
    compaction :: (path.take compactionIdx).dropWhile (fun entry => LoadedLine.id entry ≠ kept) ++
      path.drop (compactionIdx + 1)

def buildSessionContext (entries : List Line) (leafId : LoadedId) : Option SessionContext :=
  (index.buildSessionPath fuel entries leafId).map fun path =>
    let settings := path.foldl settings ("off", none)
    { messages := (contextEntries path).flatMap messages
      thinkingLevel := settings.1
      model := settings.2 }

end LoadedIndex

/-- Hang a node below its parent, or among the roots. -/
def attach (nodeMap : InsertionMap LoadedId (SessionTreeNode Line Time)) (links : TreeLinks)
    (entry : Line) : TreeLinks :=
  if parentId entry = .null ∨ parentId entry = LoadedLine.id entry then
    { links with roots := links.roots ++ [LoadedLine.id entry] }
  else if nodeMap.contains (parentId entry) then
    { links with
      children := Function.update links.children (parentId entry)
        (links.children (parentId entry) ++ [LoadedLine.id entry]) }
  else { links with roots := links.roots ++ [LoadedLine.id entry] }

def treeNodes (index : LoadedIndex Line Time) (entries : List Line) :
    InsertionMap LoadedId (SessionTreeNode Line Time) :=
  InsertionMap.indexBy (fun node => LoadedLine.id node.entry) (entries.map fun entry =>
    { entry
      label := index.labelsById.get? (LoadedLine.id entry)
      labelTimestamp := index.labelTimestampsById.get? (LoadedLine.id entry) })

variable (getTime : Time → Option Int)

/-- The older of two nodes comes first; a time that is no number decides nothing. -/
def notLater (nodeMap : InsertionMap LoadedId (SessionTreeNode Line Time))
    (left right : LoadedId) : Bool :=
  let time (node : LoadedId) := (nodeMap.get? node).bind fun node => getTime (timestamp node.entry)
  match time left, time right with
  | some left, some right => left ≤ right
  | _, _ => true

def sortNode (nodeMap : InsertionMap LoadedId (SessionTreeNode Line Time)) (links : TreeLinks)
    (node : LoadedId) : TreeLinks :=
  { links with
    children := Function.update links.children node
      ((links.children node).mergeSort (notLater getTime nodeMap)) }

/-- Sort the children of all nodes, popping nodes from a stack and pushing their children. The top
of the stack is the head of the list. -/
def sortChildren (nodeMap : InsertionMap LoadedId (SessionTreeNode Line Time)) :
    Nat → TreeLinks → List LoadedId → Option (TreeLinks × List LoadedId)
  | _, links, [] => some (links, [])
  | 0, _, _ :: _ => none
  | fuel + 1, links, node :: stack =>
    let sorted := sortNode getTime nodeMap links node
    (sortChildren nodeMap fuel sorted ((sorted.children node).reverse ++ stack)).map
      fun result => (result.1, node :: result.2)

/-- The session as a tree, if so many rounds suffice to sort it. -/
def getTree (index : LoadedIndex Line Time) (fileEntries : List Line) (fuel : Nat) :
    Option (SessionTree Line Time) :=
  let entries := getEntries fileEntries
  let nodeMap := treeNodes index entries
  let links := entries.foldl (attach nodeMap) ⟨[], fun _ => []⟩
  (sortChildren getTime nodeMap fuel links links.roots.reverse).map fun result =>
    ⟨nodeMap, result.1, result.2⟩

end Loaded

end Recode.CodingAgent

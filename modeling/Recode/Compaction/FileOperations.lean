import Recode.Session.Entry

/-! # File operations of a conversation

The files that the tool calls of a conversation read and change, and the tags
with which a compaction summary lists them. -/

namespace Recode

/-- The files read, written and edited, each in the order of their first use. -/
structure FileOperations where
  read : List String
  written : List String
  edited : List String
deriving DecidableEq

/-- Add a file to a set. -/
def addFile (files : List String) (file : String) : List String :=
  if file ∈ files then files else files ++ [file]

namespace FileOperations

def createFileOps : FileOperations := ⟨[], [], []⟩

def addToolCall (fileOps : FileOperations) (name path : String) : FileOperations :=
  if name = "read" then { fileOps with read := addFile fileOps.read path }
  else if name = "write" then { fileOps with written := addFile fileOps.written path }
  else if name = "edit" then { fileOps with edited := addFile fileOps.edited path }
  else fileOps

def addBlock (fileOps : FileOperations) : AssistantBlock → FileOperations
  | .toolCall _ name arguments =>
    match Text.truthy (((Json.obj arguments).get? "path").bind Json.asStr?) with
    | some path => fileOps.addToolCall name path
    | none => fileOps
  | _ => fileOps

def extractFileOpsFromMessage (fileOps : FileOperations) : AgentMessage → FileOperations
  | .assistant message => message.content.foldl addBlock fileOps
  | _ => fileOps

/-- The file names under a key of a previous compaction's details. -/
def detailFiles (details : Json) (key : String) : List String :=
  (((details.get? key).bind Json.asArr?).getD []).filterMap Json.asStr?

/-- The file operations of messages, starting from those of the previous compaction
unless a hook made it. -/
def extractFileOperations (messages : List AgentMessage) (previous : Option CompactionData) :
    FileOperations :=
  let start :=
    match previous with
    | none => createFileOps
    | some data =>
      if data.fromHook = some true then createFileOps
      else
        match data.details with
        | none => createFileOps
        | some details =>
          ⟨(detailFiles details "readFiles").foldl addFile [], [],
            (detailFiles details "modifiedFiles").foldl addFile []⟩
  messages.foldl extractFileOpsFromMessage start

/-- The files only read, and the files modified, in sorted order. -/
def computeFileLists (fileOps : FileOperations) : List String × List String :=
  let modified := (fileOps.edited ++ fileOps.written).foldl addFile []
  (Text.sorted (fileOps.read.filter fun file => file ∉ modified), Text.sorted modified)

def joinWith (separator : String) : List String → String
  | [] => ""
  | [text] => text
  | text :: next :: rest => text ++ separator ++ joinWith separator (next :: rest)

def fileSection (tag : String) (files : List String) : List String :=
  if files = [] then []
  else ["<" ++ tag ++ ">\n" ++ joinWith "\n" files ++ "\n</" ++ tag ++ ">"]

def formatFileOperations (readFiles modifiedFiles : List String) : String :=
  let sections := fileSection "read-files" readFiles ++ fileSection "modified-files" modifiedFiles
  if sections = [] then "" else "\n\n" ++ joinWith "\n\n" sections

end FileOperations
end Recode

import Mathlib.Logic.Function.Basic

/-! # Documents of a language server

Calls of tools open, change, save and rename documents of one client. A call sends its
messages in the order of its steps, waits for each to be written, and records what it
opened or closed afterwards. -/

namespace Recode.Lsp

open Function

structure OpenFile where
  version : Nat
  languageId : String
  content : String
deriving DecidableEq

inductive DocumentMessage
  | didOpen (version : Nat) (languageId text : String)
  | didChange (version : Nat) (text : String)
  | didSave (text : Option String)
  | didClose
  | didRenameFiles (newUri : String)
deriving DecidableEq

/-- What follows when `ensureFileOpen` returns: nothing, or `syncContent` goes on, and after
it `refreshFile` saves. -/
inductive After
  | nothing
  | change (content : String) (save : Bool)
deriving DecidableEq

/-- Where a call is: it reads its file, it waits for a message to be written, or for a call
of its own to return. -/
inductive Task
  | reading (uri : String) (next : After)
  | refreshing (uri : String)
  | opening (uri text : String) (next : After)
  | ensured (uri : String) (next : After)
  | changing (uri content : String) (save : Bool)
  | synced (uri content : String)
  | closing (uri newUri : String)
  | waiting
deriving DecidableEq

structure Documents where
  openFiles : String → Option OpenFile := fun _ => none
  tasks : Nat → Option Task := fun _ => none
  next : Nat := 0
  sent : List (String × DocumentMessage) := []

namespace Documents

variable (detectLanguageId : String → String)

def setTask (state : Documents) (id : Nat) (task : Option Task) : Documents :=
  { state with tasks := update state.tasks id task }

/-- A call sends a message and waits for it to be written. -/
def send (state : Documents) (id : Nat) (uri : String) (message : DocumentMessage) (task : Task) :
    Documents :=
  { state.setTask id (some task) with sent := state.sent ++ [(uri, message)] }

def openText (state : Documents) (id : Nat) (uri text : String) (next : After) : Documents :=
  state.send id uri (.didOpen 1 (detectLanguageId uri) text) (.opening uri text next)

def ensureFileOpen (state : Documents) (id : Nat) (uri : String) (content : Option String)
    (next : After) : Documents :=
  match state.openFiles uri, content with
  | some _, _ => state.setTask id (some (.ensured uri next))
  | none, some text => state.openText detectLanguageId id uri text next
  | none, none => state.setTask id (some (.reading uri next))

def changeText (state : Documents) (id : Nat) (uri content : String) (save : Bool) : Documents :=
  match state.openFiles uri with
  | none => state.setTask id (if save then some (.synced uri content) else none)
  | some openFile =>
    { state.send id uri (.didChange (openFile.version + 1) content)
        (.changing uri content save) with
      openFiles := update state.openFiles uri
        (some { openFile with version := openFile.version + 1, content := content }) }

def syncContent (state : Documents) (id : Nat) (uri content : String) (save : Bool) : Documents :=
  state.ensureFileOpen detectLanguageId id uri (some content) (.change content save)

def notifySaved (state : Documents) (id : Nat) (uri : String) (content : Option String) :
    Documents :=
  match state.openFiles uri with
  | none => state.setTask id none
  | some _ => state.send id uri (.didSave content) .waiting

def refreshFile (state : Documents) (id : Nat) (uri : String) : Documents :=
  match state.openFiles uri with
  | none => state.ensureFileOpen detectLanguageId id uri none .nothing
  | some _ => state.setTask id (some (.refreshing uri))

def refreshed (state : Documents) (id : Nat) (uri content : String) : Documents :=
  if (state.openFiles uri).map OpenFile.content = some content then state.setTask id none
  else state.syncContent detectLanguageId id uri content true

def renamed (state : Documents) (id : Nat) (oldUri newUri : String) : Documents :=
  state.send id oldUri (.didRenameFiles newUri) .waiting

def notifyFileRenamed (state : Documents) (id : Nat) (oldUri newUri : String) : Documents :=
  match state.openFiles oldUri with
  | none => state.renamed id oldUri newUri
  | some _ => state.send id oldUri .didClose (.closing oldUri newUri)

/-- The message of a call is written, or a call of its own has returned. -/
def proceed (state : Documents) (id : Nat) : Task → Documents
  | .reading uri next => state.setTask id (some (.reading uri next))
  | .refreshing uri => state.setTask id (some (.refreshing uri))
  | .opening uri text next =>
    { state.setTask id (some (.ensured uri next)) with
      openFiles := update state.openFiles uri
        (some { version := 1, languageId := detectLanguageId uri, content := text }) }
  | .ensured _ .nothing => state.setTask id none
  | .ensured uri (.change content save) => state.changeText id uri content save
  | .changing uri content true => state.setTask id (some (.synced uri content))
  | .changing _ _ false => state.setTask id none
  | .synced uri content => state.notifySaved id uri (some content)
  | .closing oldUri newUri =>
    { state with openFiles := update state.openFiles oldUri none }.renamed id
      oldUri newUri
  | .waiting => state.setTask id none

def fileRead (state : Documents) (id : Nat) (text : Option String) : Task → Documents
  | .reading uri next =>
    match text with
    | none => state.setTask id none
    | some text => state.openText detectLanguageId id uri text next
  | .refreshing uri =>
    match text with
    | none => state.setTask id none
    | some text => state.refreshed detectLanguageId id uri text
  | task => state.setTask id (some task)

end Documents

/-- What happens to the documents of a client. -/
inductive DocumentEvent
  | ensureFileOpen (uri : String) (content : Option String)
  | syncContent (uri content : String)
  | refreshFile (uri : String)
  | notifySaved (uri : String) (content : Option String)
  | notifyFileRenamed (oldUri newUri : String)
  | fileRead (id : Nat) (task : Task) (text : Option String)
  | proceed (id : Nat) (task : Task)

/-- A call that does not read its file has been written or has returned. -/
def Task.Reads : Task → Prop
  | .reading _ _ | .refreshing _ => True
  | _ => False

def DocumentEvent.Possible (state : Documents) : DocumentEvent → Prop
  | .fileRead id task _ => state.tasks id = some task ∧ task.Reads
  | .proceed id task => state.tasks id = some task ∧ ¬ task.Reads
  | _ => True

def Documents.called (state : Documents) : Documents :=
  { state with next := state.next + 1 }

def Documents.step (detectLanguageId : String → String) (state : Documents) :
    DocumentEvent → Documents
  | .ensureFileOpen uri content =>
    state.called.ensureFileOpen detectLanguageId state.next uri content .nothing
  | .syncContent uri content =>
    state.called.syncContent detectLanguageId state.next uri content false
  | .refreshFile uri => state.called.refreshFile detectLanguageId state.next uri
  | .notifySaved uri content => state.called.notifySaved state.next uri content
  | .notifyFileRenamed oldUri newUri => state.called.notifyFileRenamed state.next oldUri newUri
  | .fileRead id task text => state.fileRead detectLanguageId id text task
  | .proceed id task => state.proceed detectLanguageId id task

/-- The states that calls on a client come to, each event under a condition. -/
inductive DocumentsReached (detectLanguageId : String → String)
    (condition : Documents → DocumentEvent → Prop) : Documents → Prop
  | start : DocumentsReached detectLanguageId condition {}
  | step {state : Documents} (event : DocumentEvent)
      (reached : DocumentsReached detectLanguageId condition state)
      (possible : event.Possible state) (keeps : condition state event) :
      DocumentsReached detectLanguageId condition (state.step detectLanguageId event)

/-- What a server knows of a document: nothing, or its version and its text. -/
inductive Wire
  | closed
  | opened (version : Nat) (text : String)
deriving DecidableEq

/-- What a message makes of it. A message that is against the protocol makes nothing of it. -/
def Wire.next : Wire → DocumentMessage → Option Wire
  | .closed, .didOpen version _ text => some (.opened version text)
  | .opened last _, .didChange version text =>
    if last < version then some (.opened version text) else none
  | .opened last text, .didSave _ => some (.opened last text)
  | .opened _ _, .didClose => some .closed
  | wire, .didRenameFiles _ => some wire
  | _, _ => none

/-- What a server knows of a document after some messages, if these follow the protocol. -/
def replayMessages (uri : String) (sent : List (String × DocumentMessage)) : Option Wire :=
  sent.foldl (fun wire message =>
    if message.1 = uri then wire.bind fun wire => wire.next message.2 else wire) (some .closed)

/-- Every document is spoken of as the protocol says, and a document that no call is busy with
is recorded as the server knows it. -/
def FollowsProtocol (state : Documents) : Prop :=
  ∀ uri, ∃ wire, replayMessages uri state.sent = some wire ∧ ((∀ id, state.tasks id = none) →
      ∀ version text, wire = .opened version text → ∃ openFile,
        state.openFiles uri = some openFile ∧ openFile.version = version ∧ openFile.content = text)

end Recode.Lsp

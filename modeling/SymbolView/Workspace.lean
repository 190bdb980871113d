import SymbolView.Session.Query

/-!
# Workspaces

A `Workspace` holds the open sessions.  Sessions are numbered in the order in which they are opened,
and no number is given twice.

What is done in a workspace is a list of steps, which `Workspace.run` carries out.  The host may
change between two questions, so a step that asks carries the host as it is then.
-/

set_option autoImplicit false

namespace SymbolView

/-- The open sessions. -/
structure Workspace where
  /-- The open sessions, oldest first. -/
  sessions : List Session := []
  /-- How many sessions have been opened. -/
  opened : Nat := 0

namespace Workspace

/-- An open session. -/
def session? (w : Workspace) (id : SessionId) : Option Session :=
  w.sessions.find? (·.id == id)

/-- The number of the session that is opened next. -/
def nextId (w : Workspace) : SessionId := ⟨w.opened⟩

/-- Opens a session. -/
def start (w : Workspace) (config : SessionConfig) : Workspace :=
  ⟨w.sessions ++ [.start w.nextId config], w.opened + 1⟩

/-- Closes a session; all it has made and found out is gone. -/
def close (w : Workspace) (id : SessionId) : Workspace :=
  { w with sessions := w.sessions.filter (·.id != id) }

/-- Puts an open session in its new state. -/
def put (w : Workspace) (session : Session) : Workspace :=
  { w with sessions := w.sessions.map fun s ↦ if s.id = session.id then session else s }

/-- How a question to an open session ended, and the workspace afterwards; a session that is not
open does not answer. -/
def ask (w : Workspace) (host : Host) (id : SessionId) (q : Query) :
    Option (Except Failure Answer) × Workspace :=
  match w.session? id with
  | none => (none, w)
  | some session =>
    let (answer, after) := session.ask host q
    (some answer, w.put after)

/-- Something done in a workspace. -/
inductive Step where
  /-- Opens a session. -/
  | start (config : SessionConfig)
  /-- Closes a session. -/
  | close (id : SessionId)
  /-- Asks a session about a host. -/
  | ask (host : Host) (id : SessionId) (q : Query)

/-- Carries out a step; only questions are answered. -/
def step (w : Workspace) : Step → Option (Except Failure Answer) × Workspace
  | .start config => (none, w.start config)
  | .close id => (none, w.close id)
  | .ask host id q => w.ask host id q

/-- Carries out steps one after the other. -/
def run (w : Workspace) : List Step → List (Option (Except Failure Answer)) × Workspace
  | [] => ([], w)
  | s :: rest =>
    let (answer, after) := w.step s
    let (answers, last) := after.run rest
    (answer :: answers, last)

end Workspace
end SymbolView

import DirectoryBrowser.Backend.Memory
import DirectoryBrowser.Operation.Progress

/-!
# Operations on trees in memory

A workbench is a tree in memory on which chosen paths misbehave: the call
fails with a given error, panics, or has the operation cancelled before it
goes through. Calls are recorded in their order.
-/

namespace DirectoryBrowser

inductive Mishap where
  | error (error : BackendError)
  | panic
  | cancel
  deriving DecidableEq, Repr

structure Workbench where
  tree : MemoryTree
  cancelled : Bool
  mishaps : Table String Mishap
  /-- A read-only tree refuses every change and is not asked twice. -/
  readOnly : Bool
  calls : List String

namespace Workbench

def resultOf : BackendReply → Except BackendError Unit
  | .failed error => .error error
  | _ => .ok ()

/-- One call; deletion passes the token on, creation does not look at it. -/
def act (kind : OperationKind) (path : String) (bench : Workbench) :
    Option (Except BackendError Unit) × Workbench :=
  if bench.readOnly then
    (some (.error (match kind with
      | .delete => .deleting path
      | .generateTree => .creatingDirectory path)), bench)
  else
    let bench := { bench with calls := bench.calls ++ [path] }
    let go (bench : Workbench) : Option (Except BackendError Unit) × Workbench :=
      let (reply, tree) :=
        match kind with
        | .delete => bench.tree.call bench.cancelled (.delete path)
        | .generateTree => bench.tree.call false (.createDirectory path)
      (some (resultOf reply), { bench with tree })
    match bench.mishaps.find? path with
    | some (.error error) => (some (.error error), bench)
    | some .panic => (none, bench)
    | some .cancel => go { bench with cancelled := true }
    | none => go bench

def workplace (kind : OperationKind) : Workplace Workbench where
  act := act kind
  poll bench := (bench.cancelled, bench)

end Workbench

end DirectoryBrowser

import DirectoryBrowser.Operation.Progress

/-!
# Bulk deletion

Paths are deleted in order, and the first failure ends the operation, so
that nothing after it is touched. Cancellation is looked for before each
path.
-/

namespace DirectoryBrowser.Delete

variable {σ : Type}

def countDone (progress : Progress) : Progress :=
  { progress with done := progress.done + 1 }

def deletePaths (workplace : Workplace σ) (running : Running σ) :
    List String → Ending × Running σ
  | [] => (.returned, running)
  | path :: paths =>
    let (cancelled, running) := running.poll workplace
    if cancelled then (.failed .cancelled, running)
    else
      let (result, running) := (running.beginItem path).act workplace path
      match result with
      | none => (.panicked, running)
      | some (.ok ()) => deletePaths workplace (running.endItem path countDone) paths
      | some (.error error) =>
        if error.isCancelled then (.failed .cancelled, running.endItem path id)
        else
          let (broken, running) :=
            running.change fun progress ↦ Progress.skipRest (progress.withoutItem path)
          if broken then (.panicked, running) else (.failed (.entry path error), running)

def run (workplace : Workplace σ) (world : σ) (paths : List String) : Ending × Running σ :=
  let running := (Running.start world).update fun progress ↦
    { progress with total := paths.length }
  deletePaths workplace running paths

end DirectoryBrowser.Delete

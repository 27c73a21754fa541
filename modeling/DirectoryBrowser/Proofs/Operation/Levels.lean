import DirectoryBrowser.Operation.Generate

/-!
# What can become of a level

A generation looks at its token before a level and after it. Between the two it
creates the level, and after them it counts the failures; every one of these can
be where it ends. What it goes on with else is the same generation with one
level less.
-/

namespace DirectoryBrowser.Generate

variable {σ : Type}

/-- The course of a generation from the level with the work given, below which others remain. -/
inductive Levelled (createLevel : LevelRunner σ) (workplace : Workplace σ) (layout : TreeLayout)
    (start : Running σ) (work : List String) (firstError : Option OperationError)
    (remaining : Nat) : Ending → Running σ → Prop
  | cancelled (hpoll : (start.poll workplace).1 = true) :
      Levelled createLevel workplace layout start work firstError remaining
        (.failed .cancelled) (start.poll workplace).2
  | nothing (hpoll : (start.poll workplace).1 = false) (hwork : work = []) :
      Levelled createLevel workplace layout start work firstError remaining
        (endingOf firstError) (start.poll workplace).2
  | interrupted (results : List (Except BackendError Unit)) (next : Running σ)
      (hlevel : createLevel remaining (start.poll workplace).2 work = (results, next))
      (hpoll : (next.poll workplace).1 = true) :
      Levelled createLevel workplace layout start work firstError remaining
        (.failed .cancelled) (next.poll workplace).2
  | broken (results : List (Except BackendError Unit)) (next : Running σ) (counted : Tally σ)
      (hlevel : createLevel remaining (start.poll workplace).2 work = (results, next))
      (hpoll : (next.poll workplace).1 = false)
      (htally : tally (layout.subtreeSize remaining) (next.poll workplace).2 firstError
        (work.zip results) = counted)
      (hbroken : counted.broken = true) :
      Levelled createLevel workplace layout start work firstError remaining
        .panicked counted.running
  | deeper (results : List (Except BackendError Unit)) (next : Running σ) (counted : Tally σ)
      (hlevel : createLevel remaining (start.poll workplace).2 work = (results, next))
      (hpoll : (next.poll workplace).1 = false)
      (htally : tally (layout.subtreeSize remaining) (next.poll workplace).2 firstError
        (work.zip results) = counted)
      (hwhole : counted.broken = false) :
      Levelled createLevel workplace layout start work firstError remaining
        (createLevels createLevel workplace layout counted.running counted.parents
          counted.firstError remaining).1
        (createLevels createLevel workplace layout counted.running counted.parents
          counted.firstError remaining).2

theorem createLevels_levelled (createLevel : LevelRunner σ) (workplace : Workplace σ)
    (layout : TreeLayout) (start : Running σ) (parents : List String)
    (firstError : Option OperationError) (remaining : Nat) :
    Levelled createLevel workplace layout start (workOf layout (layout.depth - remaining) parents)
      firstError remaining
      (createLevels createLevel workplace layout start parents firstError (remaining + 1)).1
      (createLevels createLevel workplace layout start parents firstError (remaining + 1)).2 := by
  unfold createLevels
  dsimp only
  split
  case isTrue hpoll => exact .cancelled hpoll
  case isFalse hpoll =>
    have hpoll := eq_false_of_ne_true hpoll
    split
    case isTrue hempty => exact .nothing hpoll (List.isEmpty_iff.mp hempty)
    case isFalse =>
      split
      case isTrue hlater => exact .interrupted _ _ rfl hlater
      case isFalse hlater =>
        have hlater := eq_false_of_ne_true hlater
        split
        case isTrue hbroken => exact .broken _ _ _ rfl hlater rfl hbroken
        case isFalse hwhole => exact .deeper _ _ _ rfl hlater rfl (eq_false_of_ne_true hwhole)

end DirectoryBrowser.Generate

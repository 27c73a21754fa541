import Mathlib.Data.List.Forall2
import DirectoryBrowser.Proofs.Paths
import DirectoryBrowser.Proofs.Text.Cutting

/-!
# Lines read back

A line ends in a line feed or in a carriage return and a line feed, and the last
one of a text need not end in either. Reading finds the lines again. It can take a
carriage return from a line that ends in one, if a bare line feed follows, so what
is read is only known up to that.
-/

namespace DirectoryBrowser.Text

inductive LineEnd where
  | feed
  | returnFeed
  deriving DecidableEq, Repr

def LineEnd.text : LineEnd → List Char
  | .feed => ['\n']
  | .returnFeed => ['\r', '\n']

/-- Lines with their ends, of which the last one is left out unless the text is closed. -/
def joined : List (List Char × LineEnd) → Bool → List Char
  | [], _ => []
  | [(line, ending)], closed => if closed then line ++ ending.text else line
  | (line, ending) :: rows, closed => line ++ ending.text ++ joined rows closed

/-- What may be read of a line. -/
def IsRead (line read : List Char) : Prop := read = line ∨ line = read ++ ['\r']

variable {line read before ending rest : List Char}

namespace IsRead

theorem tail {c : Char} (h : IsRead (c :: line) read) (hne : line ≠ []) :
    ∃ more, read = c :: more ∧ IsRead line more := by
  rcases h with rfl | hreturn
  · exact ⟨line, rfl, Or.inl rfl⟩
  · cases read with
    | nil => exact absurd (List.cons.inj hreturn).2 hne
    | cons d more =>
      obtain ⟨rfl, hline⟩ := List.cons.inj hreturn
      exact ⟨more, rfl, Or.inr hline⟩

/-- No carriage return is taken from behind other characters. -/
theorem exists_append (h : IsRead (before ++ ending) read) (hending : '\r' ∉ ending.getLast?) :
    ∃ front, front <+: before ∧ read = front ++ ending := by
  rcases h with rfl | hreturn
  · exact ⟨before, List.prefix_rfl, rfl⟩
  · rcases List.eq_nil_or_concat ending with rfl | ⟨middle, last, rfl⟩
    · rw [List.append_nil] at hreturn
      exact ⟨read, ⟨['\r'], hreturn.symm⟩, (List.append_nil read).symm⟩
    · rw [List.concat_eq_append, ← List.append_assoc] at hreturn
      have hlast : last = '\r' := by simpa using (List.append_inj' hreturn rfl).2
      simp [hlast] at hending

end IsRead

theorem isRead_getD_dropEnd? (line : List Char) :
    IsRead line ((dropEnd? ['\r'] line).getD line) := by
  cases hcut : dropEnd? ['\r'] line with
  | none => exact Or.inl rfl
  | some front => exact Or.inr (Path.dropEnd?_eq_some_iff.mp hcut)

@[simp] theorem lines_nil : lines [] = [] := rfl

theorem lines_of_notMem (hline : '\n' ∉ line) (hne : line ≠ []) : lines line = [line] := by
  obtain ⟨c, line, rfl⟩ := List.exists_cons_of_ne_nil hne
  unfold lines
  rw [splitOn_of_notMem hline]
  rfl

theorem lines_append_feed (hline : '\n' ∉ line) (rest : List Char) :
    lines (line ++ '\n' :: rest) = (dropEnd? ['\r'] line).getD line :: lines rest := by
  obtain ⟨piece, pieces, hpieces⟩ := List.exists_cons_of_ne_nil (splitOn_ne_nil '\n' rest)
  unfold lines
  rw [splitOn_append hline, hpieces]
  dsimp only
  rw [List.dropLast_cons_cons, List.getLast?_cons_cons, List.map_cons]
  split <;> rfl

/-- The first line is read up to its end, and the others are read as they are without it. -/
theorem lines_append (hline : '\n' ∉ line) (ending : LineEnd) (rest : List Char) :
    ∃ read, IsRead line read ∧ lines (line ++ ending.text ++ rest) = read :: lines rest := by
  cases ending with
  | feed =>
    refine ⟨_, isRead_getD_dropEnd? line, ?_⟩
    rw [LineEnd.text, List.append_assoc, List.singleton_append, lines_append_feed hline]
  | returnFeed =>
    have hreturn : '\n' ∉ line ++ ['\r'] := by simpa using hline
    have hcut : dropEnd? ['\r'] (line ++ ['\r']) = some line := Path.dropEnd?_eq_some_iff.mpr rfl
    refine ⟨line, Or.inl rfl, ?_⟩
    calc lines (line ++ LineEnd.returnFeed.text ++ rest)
      _ = lines (line ++ ['\r'] ++ '\n' :: rest) := by simp [LineEnd.text]
      _ = line :: lines rest := by rw [lines_append_feed hreturn, hcut, Option.getD_some]

/-- Line by line, reading gives back what has been joined. -/
theorem lines_joined {rows : List (List Char × LineEnd)}
    (hrows : ∀ row ∈ rows, '\n' ∉ row.1 ∧ row.1 ≠ []) (closed : Bool) :
    List.Forall₂ (fun row read ↦ IsRead row.1 read) rows (lines (joined rows closed)) := by
  fun_induction joined rows closed with
  | case1 => exact List.Forall₂.nil
  | case2 line ending =>
    have hline := (hrows _ List.mem_cons_self).1
    obtain ⟨read, hread, hlines⟩ := lines_append hline ending []
    rw [List.append_nil, lines_nil] at hlines
    rw [hlines]
    exact List.Forall₂.cons hread List.Forall₂.nil
  | case3 line ending =>
    obtain ⟨hline, hne⟩ := hrows _ List.mem_cons_self
    rw [lines_of_notMem hline hne]
    exact List.Forall₂.cons (Or.inl rfl) List.Forall₂.nil
  | case4 line ending rows closed hmore ih =>
    obtain ⟨hrow, hrest⟩ := List.forall_mem_cons.mp hrows
    obtain ⟨read, hread, hlines⟩ := lines_append hrow.1 ending (joined rows closed)
    rw [hlines]
    exact List.Forall₂.cons hread (ih hrest)

end DirectoryBrowser.Text

import Mathlib.Data.List.Induction

/-!
# A list around one position

Writing to a position of a list, or taking it out, leaves what is before it and
what is after it alone. The first lemma hands out both parts, so that invariants
over a list of outstanding work can be carried over by appending.
-/

namespace DirectoryBrowser

theorem exists_split_of_getElem? {α : Type} {items : List α} {index : Nat} {item : α}
    (h : items[index]? = some item) :
    ∃ before after, items = before ++ item :: after ∧
      (∀ other, items.set index other = before ++ other :: after) ∧
      items.eraseIdx index = before ++ after := by
  obtain ⟨hlt, hitem⟩ := List.getElem?_eq_some_iff.mp h
  refine ⟨items.take index, items.drop (index + 1), ?_, ?_, ?_⟩
  · rw [← hitem, ← List.drop_eq_getElem_cons hlt, List.take_append_drop]
  · intro other
    rw [List.set_eq_take_append_cons_drop, if_pos hlt]
  · exact List.eraseIdx_eq_take_drop_succ items index

/-- A position in a list that has grown at its end is the new one or an old one. -/
theorem split_of_concat {α : Type} {items before after : List α} {last item : α}
    (h : items ++ [last] = before ++ item :: after) :
    (before = items ∧ item = last) ∨ ∃ rest, items = before ++ item :: rest := by
  rcases List.eq_nil_or_concat after with rfl | ⟨rest, other, rfl⟩
  · obtain ⟨hitems, hlast⟩ := List.append_inj' h rfl
    exact Or.inl ⟨hitems.symm, (List.singleton_inj.mp hlast).symm⟩
  · rw [List.concat_eq_append, ← List.cons_append, ← List.append_assoc] at h
    exact Or.inr ⟨rest, (List.append_inj' h rfl).1⟩

end DirectoryBrowser

import Mathlib.Data.List.DropRight
import DirectoryBrowser.Proofs.Text.Cutting
import DirectoryBrowser.Proofs.Url.Parsing

/-!
# URLs that are written out

A URL of a file server that is written as scheme, authority and path is cut in the
same places when it is read: no character of the authority ends it, and none of the
path begins a query or a fragment. So reading it comes down to reading the login,
the host and the port.
-/

namespace DirectoryBrowser.Url

open Text

variable {scheme authority text rest : List Char}

/-- The character is no blank and begins neither a query nor a fragment. -/
def StaysInPath (c : Char) : Prop := 0x20 < c.toNat ∧ c ≠ '#' ∧ c ≠ '?'

instance (c : Char) : Decidable (StaysInPath c) :=
  inferInstanceAs (Decidable (0x20 < c.toNat ∧ c ≠ '#' ∧ c ≠ '?'))

def StaysInAuthority (c : Char) : Prop := StaysInPath c ∧ isSeparator .special c = false

instance (c : Char) : Decidable (StaysInAuthority c) :=
  inferInstanceAs (Decidable (StaysInPath c ∧ isSeparator .special c = false))

theorem cleaned_eq_self (h : ∀ c ∈ text, 0x20 < c.toNat) : cleaned text = text := by
  have hblank : ∀ c ∈ text, isBlank c = false := by
    intro c hc
    have hlow := h c hc
    simp only [isBlank, decide_eq_false_iff_not]
    omega
  have hfront : text.dropWhile isBlank = text := by
    rw [List.dropWhile_eq_self_iff]
    intro hne
    simp [hblank _ (List.getElem_mem hne)]
  have hback : dropTrailing isBlank text = text := by
    refine List.rdropWhile_eq_self_iff.mpr fun hne ↦ ?_
    simp [hblank _ (List.getLast_mem hne)]
  have hnoise : ∀ c ∈ text, (!isLineNoise c) = true := by
    intro c hc
    have hlow := h c hc
    simp only [isLineNoise, Bool.not_eq_true', Bool.or_eq_false_iff, beq_eq_false_iff_ne]
    refine ⟨⟨?_, ?_⟩, ?_⟩ <;> rintro rfl <;> exact absurd hlow (by decide)
  rw [cleaned, trimBoth, hfront, hback, List.filter_eq_self.mpr hnoise]

theorem cutReference_eq_self (h : ∀ c ∈ text, StaysInPath c) :
    cutReference text = ⟨text, none, none⟩ := by
  have hhash : cutWhere? (· == '#') text = none :=
    cutWhere?_eq_none_iff.mpr fun hmem ↦ (h _ hmem).2.1 rfl
  have hmark : cutWhere? (· == '?') text = none :=
    cutWhere?_eq_none_iff.mpr fun hmem ↦ (h _ hmem).2.2 rfl
  rw [cutReference, hhash]
  simp only [hmark]

theorem isSeparator_eq_false (kind : SchemeKind) {c : Char} (h : isSeparator .special c = false) :
    isSeparator kind c = false := by
  simp only [isSeparator, Bool.or_eq_false_iff, Bool.and_eq_false_iff] at h ⊢
  refine ⟨h.1, Or.inl ?_⟩
  simpa using h.2

theorem parse_eq_parseAuthority (hscheme : scheme = "ftp".toList ∨ scheme = "ftps".toList)
    (hne : authority ≠ []) (hauthority : ∀ c ∈ authority, StaysInAuthority c)
    (hrest : ∀ c ∈ rest, StaysInPath c) :
    parse (String.ofList (scheme ++ ':' :: '/' :: '/' :: (authority ++ rest))) =
      parseAuthority scheme ⟨'/' :: '/' :: (authority ++ rest), none, none⟩
        (authority ++ rest) := by
  have hslashes : ∀ c ∈ '/' :: '/' :: (authority ++ rest), StaysInPath c := by
    simp only [List.forall_mem_cons, List.forall_mem_append]
    exact ⟨by decide, by decide, fun c hc ↦ (hauthority c hc).1, hrest⟩
  have hclean : cleaned (scheme ++ ':' :: '/' :: '/' :: (authority ++ rest)) =
      scheme ++ ':' :: '/' :: '/' :: (authority ++ rest) := by
    apply cleaned_eq_self
    rw [List.forall_mem_append, List.forall_mem_cons]
    refine ⟨?_, by decide, fun c hc ↦ (hslashes c hc).1⟩
    rcases hscheme with rfl | rfl <;> exact List.forall_iff_forall_mem.mp (by decide)
  have hcut : cutScheme? (scheme ++ ':' :: '/' :: '/' :: (authority ++ rest)) =
      some (scheme, '/' :: '/' :: (authority ++ rest)) := by
    rcases hscheme with rfl | rfl <;> rfl
  have hdrop : ('/' :: '/' :: (authority ++ rest)).dropWhile (isSeparator .special) =
      authority ++ rest := by
    obtain ⟨c, authority, rfl⟩ := List.exists_cons_of_ne_nil hne
    have hc : isSeparator .special c = false := (hauthority c List.mem_cons_self).2
    rw [List.dropWhile_cons_of_pos rfl, List.dropWhile_cons_of_pos rfl, List.cons_append,
      List.dropWhile_cons_of_neg (by simp [hc])]
  unfold parse parseFrom
  simp only [String.toList_ofList, hclean, hcut, cutReference_eq_self hslashes]
  rcases hscheme with rfl | rfl
  · exact congrArg (parseAuthority _ _) hdrop
  · rfl

/-- What is written in front of a path is read as an authority. -/
theorem parse_written {login : Option (List Char) × List Char}
    {place : List Char × Option (List Char)} {host : Host} {port : Option Nat}
    (hscheme : scheme = "ftp".toList ∨ scheme = "ftps".toList)
    (hauthority : ∀ c ∈ authority, StaysInAuthority c) (hrest : ∀ c ∈ rest, StaysInPath c)
    (hlogin : cutLogin authority = login) (hplace : cutHost false login.2 = place)
    (hne : place.1 ≠ []) (hhost : readHost (Scheme.kind scheme) place.1 = .ok host)
    (hnamed : host ≠ .empty) (hport : readPort scheme place.2 = .ok (port, [])) :
    parse (String.ofList (scheme ++ ':' :: '/' :: '/' :: (authority ++ '/' :: rest))) = .ok
      { scheme, username := (parseUserinfo (login.1.getD [])).1
        password := (parseUserinfo (login.1.getD [])).2, host, port
        path := .segments (pathSegments (Scheme.kind scheme) ('/' :: rest))
        query := none, fragment := none } := by
  have hempty : authority ≠ [] := by
    rintro rfl
    have hnone : cutLogin [] = (none, []) := rfl
    rw [← hlogin, hnone] at hplace
    exact hne (congrArg Prod.fst hplace).symm
  have hends : ∀ c ∈ authority, (!isSeparator (Scheme.kind scheme) c) = true := fun c hc ↦ by
    rw [isSeparator_eq_false _ (hauthority c hc).2]
    rfl
  have htake : (authority ++ '/' :: rest).takeWhile (fun c ↦ !isSeparator (Scheme.kind scheme) c) =
      authority := by
    rw [List.takeWhile_append_of_pos hends, List.takeWhile_cons_of_neg (by simp), List.append_nil]
  have hdrop : (authority ++ '/' :: rest).dropWhile (fun c ↦ !isSeparator (Scheme.kind scheme) c) =
      '/' :: rest := by
    rw [List.dropWhile_append_of_pos hends, List.dropWhile_cons_of_neg (by simp)]
  rw [parse_eq_parseAuthority hscheme hempty hauthority
    (List.forall_mem_cons.mpr ⟨by decide, hrest⟩)]
  rw [← htake] at hlogin
  rw [parseAuthority_of hlogin hplace hne hhost hnamed hport, hdrop]
  rfl

/-! ### Parts of an authority -/

/-- The text is no end of a host, whatever follows it. -/
def PassesHost (text : List Char) : Prop :=
  ∀ rest, cutHost false (text ++ rest) = (text ++ (cutHost false rest).1, (cutHost false rest).2)

theorem passesHost_of_plain (h : ∀ c ∈ text, c ≠ ':' ∧ c ≠ '[') : PassesHost text := by
  intro rest
  induction text with
  | nil => rfl
  | cons c text ih =>
    obtain ⟨⟨hcolon, hbracket⟩, hrest⟩ := List.forall_mem_cons.mp h
    simp [cutHost, hcolon, hbracket, ih hrest]

theorem cutHost_true (h : ∀ c ∈ text, c ≠ '[' ∧ c ≠ ']') :
    cutHost true (text ++ rest) = (text ++ (cutHost true rest).1, (cutHost true rest).2) := by
  induction text with
  | nil => rfl
  | cons c text ih =>
    obtain ⟨⟨hopening, hclosing⟩, hrest⟩ := List.forall_mem_cons.mp h
    simp [cutHost, hopening, hclosing, ih hrest]

/-- Colons between brackets belong to the host. -/
theorem passesHost_bracketed (h : ∀ c ∈ text, c ≠ '[' ∧ c ≠ ']') :
    PassesHost ('[' :: (text ++ [']'])) := by
  intro rest
  rw [List.cons_append, List.append_assoc, List.singleton_append, cutHost]
  simp [cutHost_true h, cutHost]

theorem PassesHost.cutHost_self (h : PassesHost text) : cutHost false text = (text, none) := by
  have hcut := h []
  rwa [List.append_nil, cutHost, List.append_nil] at hcut

theorem PassesHost.cutHost_port (h : PassesHost text) (port : List Char) :
    cutHost false (text ++ ':' :: port) = (text, some port) := by
  have hcut := h (':' :: port)
  rwa [show cutHost false (':' :: port) = ([], some port) from rfl, List.append_nil] at hcut

theorem parseUserinfo_of {user password : List Char} (huser : ':' ∉ user) (hne : password ≠ []) :
    parseUserinfo (user ++ ':' :: password) =
      (percentEncode escapesInUserinfo user, some (percentEncode escapesInUserinfo password)) := by
  obtain ⟨c, rest, rfl⟩ := List.exists_cons_of_ne_nil hne
  rw [parseUserinfo, cutWhere?_append huser]

end DirectoryBrowser.Url

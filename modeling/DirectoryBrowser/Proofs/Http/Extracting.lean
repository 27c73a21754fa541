import DirectoryBrowser.Proofs.Http.Entering

/-!
# What a page lists

The entries of a page are the direct children of the listing that its links lead to,
each in the place of the first link that shows it. A link shows an entry when the
URL that it leads to has one segment more than the listing, however the link is
written, and that segment spells a name. `Shows` says so without the order in which
the links are sifted.
-/

namespace DirectoryBrowser

open Text Url

variable {listing target : Url} {link segment : List Char} {isDir : Bool} {entry : Entry}

namespace Url

/-- What stands between the separators of the path. -/
def pathPieces (url : Url) : List (List Char) := splitOn '/' url.path.text

end Url

namespace HttpIndex

/-! ### Links to direct children -/

/-- A URL on the server of the listing with one segment more. The path of a listing ends in a
separator, so its last piece is empty; so is that of a directory. -/
structure IsChild (listing target : Url) (segment : List Char) (isDir : Bool) : Prop where
  sameOrigin : target.sameOrigin listing = true
  segment_ne_nil : segment ≠ []
  pathPieces : target.pathPieces =
    listing.pathPieces.dropLast ++ segment :: if isDir then [[]] else []

/-- The link leads to a direct child of the listing, whose segment spells the name of the entry. -/
structure Shows (listing : Url) (link : List Char) (entry : Entry) : Prop where
  isWritten : link ≠ [] ∧ link.head? ≠ some '?' ∧ link.head? ≠ some '#'
  leads : ∃ target segment, listing.join (linkText link) = .ok target ∧
    IsChild listing target segment entry.isDir ∧
    entry.name = percentDecode (String.ofList segment)
  isName : Path.IsName entry.name
  not_dots : entry.name ≠ "." ∧ entry.name ≠ ".."
  info : entry.info = none

theorem childOf_eq_some_iff : childOf listing target = some (segment, isDir) ↔
    segment ≠ [] ∧ '/' ∉ segment ∧
      target.path.text = listing.path.text ++ (segment ++ if isDir then ['/'] else []) := by
  unfold childOf
  constructor
  · intro h
    split at h
    · cases h
    rename_i rest hrest
    have hbegins := Path.dropStart?_eq_some_iff.mp hrest
    cases hends : dropEnd? ['/'] rest with
    | none =>
      have hbare : rest ≠ [] ∧ '/' ∉ rest ∧ rest = segment ∧ false = isDir := by
        simpa [hends, and_assoc] using h
      obtain ⟨hne, hslash, rfl, rfl⟩ := hbare
      exact ⟨hne, hslash, by simpa using hbegins⟩
    | some name =>
      have hdir : name ≠ [] ∧ '/' ∉ name ∧ name = segment ∧ true = isDir := by
        simpa [hends, and_assoc] using h
      obtain ⟨hne, hslash, rfl, rfl⟩ := hdir
      rw [Path.dropEnd?_eq_some_iff.mp hends] at hbegins
      exact ⟨hne, hslash, hbegins⟩
  · rintro ⟨hne, hslash, htext⟩
    rw [Path.dropStart?_eq_some_iff.mpr htext]
    cases isDir with
    | true =>
      have hends : dropEnd? ['/'] (segment ++ ['/']) = some segment :=
        Path.dropEnd?_eq_some_iff.mpr rfl
      simp [hends, hne, hslash]
    | false =>
      have hends : dropEnd? ['/'] segment = none := by
        refine Option.eq_none_iff_forall_ne_some.mpr fun front hfront ↦ hslash ?_
        rw [Path.dropEnd?_eq_some_iff.mp hfront]
        exact List.mem_append_right front (List.mem_singleton_self '/')
      simp [hends, hne, hslash]

/-- After the separator at the end of a listing, a text without separators is one more segment. -/
theorem splitOn_child {text : List Char} (hlisting : text.getLast? = some '/')
    (hslash : '/' ∉ segment) (isDir : Bool) :
    splitOn '/' (text ++ (segment ++ if isDir then ['/'] else [])) =
      (splitOn '/' text).dropLast ++ segment :: if isDir then [[]] else [] := by
  obtain ⟨front, rfl⟩ := List.getLast?_eq_some_iff.mp hlisting
  have hfront : splitOn '/' (front ++ ['/']) = splitOn '/' front ++ [[]] :=
    splitOn_append_cons '/' front []
  have hsegment : splitOn '/' (segment ++ if isDir then ['/'] else []) =
      segment :: if isDir then [[]] else [] := by
    cases isDir with
    | true => exact splitOn_append hslash []
    | false => simpa using splitOn_of_notMem hslash
  rw [hfront, List.dropLast_concat, ← hsegment, List.append_assoc, List.singleton_append,
    splitOn_append_cons]

theorem isChild_iff (hlisting : listing.path.text.getLast? = some '/') :
    IsChild listing target segment isDir ↔
      target.sameOrigin listing = true ∧ childOf listing target = some (segment, isDir) := by
  rw [childOf_eq_some_iff]
  constructor
  · intro h
    have hpiece : segment ∈ splitOn '/' target.path.text := by
      rw [← Url.pathPieces, h.pathPieces]
      exact List.mem_append_right _ List.mem_cons_self
    have hslash : '/' ∉ segment := notMem_of_mem_splitOn hpiece
    have htext := h.pathPieces.trans (splitOn_child hlisting hslash isDir).symm
    exact ⟨h.sameOrigin, h.segment_ne_nil, hslash, splitOn_inj.mp htext⟩
  · rintro ⟨horigin, hne, hslash, htext⟩
    refine ⟨horigin, hne, ?_⟩
    rw [Url.pathPieces, htext]
    exact splitOn_child hlisting hslash isDir

theorem shows_iff (hlisting : listing.path.text.getLast? = some '/') :
    Shows listing link entry ↔ entryOf listing link = some entry := by
  rw [entryOf_eq_some_iff]
  constructor
  · intro h
    obtain ⟨target, segment, hjoin, hchild, hname⟩ := h.leads
    obtain ⟨horigin, hchild⟩ := (isChild_iff hlisting).mp hchild
    have hentryName : isEntryName entry.name = true := by
      simp [isEntryName, h.not_dots, h.isName.2]
    refine ⟨h.isWritten, target, segment, hjoin, horigin, hchild, hname ▸ hentryName, ?_⟩
    rw [← hname, ← h.info]
  · rintro ⟨hwritten, target, segment, hjoin, horigin, hchild, hname, hentry⟩
    have heq : entry.name = percentDecode (String.ofList segment) := congrArg Entry.name hentry
    rw [← heq] at hname
    have hdots : (entry.name ≠ "." ∧ entry.name ≠ "..") ∧ '/' ∉ entry.name.toList := by
      simpa [isEntryName] using hname
    have hne : entry.name ≠ "" := heq ▸ percentDecode_ne_empty (childOf_eq_some_iff.mp hchild).1
    exact
      { isWritten := hwritten
        leads := ⟨target, segment, hjoin, (isChild_iff hlisting).mpr ⟨horigin, hchild⟩, heq⟩
        isName := ⟨hne, hdots.2⟩
        not_dots := hdots.1
        info := congrArg Entry.info hentry }

/-! ### Entries made one by one -/

/-- Goes through the links in order and checks the name of each entry as it is made. -/
def collect (listing : Url) (seen : List String) :
    List (List Char) → Except InvalidName (List Entry)
  | [] => .ok []
  | link :: links =>
    match entryOf listing link with
    | none => collect listing seen links
    | some found =>
      if seen.contains found.name then collect listing seen links
      else do
        let entry ← Entry.make found.name found.isDir found.info
        let entries ← collect listing (entry.name :: seen) links
        return entry :: entries

theorem make_of_entryOf (h : entryOf listing link = some entry) :
    Entry.make entry.name entry.isDir entry.info = .ok entry := by
  obtain ⟨target, segment, -, -, hchild, hname, hentryName⟩ := entryOf_eq_some h
  have hempty : entry.name ≠ "" :=
    hname ▸ percentDecode_ne_empty (childOf_eq_some_iff.mp hchild).1
  have hslash : '/' ∉ entry.name.toList := by
    simp only [isEntryName, Bool.and_eq_true, Bool.not_eq_true'] at hentryName
    simpa using hentryName.2
  simp [Entry.make, Entry.checkName, hempty, hslash]

theorem collect_eq (listing : Url) (seen : List String) (links : List (List Char)) :
    collect listing seen links = .ok (distinct seen (links.filterMap (entryOf listing))) := by
  induction links generalizing seen with
  | nil => rfl
  | cons link links ih =>
    rw [collect, List.filterMap_cons]
    cases hentry : entryOf listing link with
    | none => exact ih seen
    | some entry =>
      dsimp only
      rw [distinct]
      split
      · exact ih seen
      · rw [make_of_entryOf hentry]
        change (collect listing (entry.name :: seen) links >>= fun entries ↦
          pure (entry :: entries)) = _
        rw [ih]
        rfl

/-! ### The first link of each name -/

theorem name_notMem_of_mem_distinct {seen : List String} {entries : List Entry}
    (h : entry ∈ distinct seen entries) : entry.name ∉ seen := by
  induction entries generalizing seen with
  | nil => cases h
  | cons first entries ih =>
    rw [distinct] at h
    split at h
    case isTrue => exact ih h
    case isFalse hfirst =>
      rcases List.mem_cons.mp h with rfl | hrest
      · simpa using hfirst
      · exact fun hseen ↦ ih hrest (List.mem_cons_of_mem _ hseen)

theorem nodup_distinct (seen : List String) (entries : List Entry) :
    ((distinct seen entries).map Entry.name).Nodup := by
  induction entries generalizing seen with
  | nil => exact List.nodup_nil
  | cons first entries ih =>
    rw [distinct]
    split
    · exact ih seen
    · refine List.nodup_cons.mpr ⟨fun hmem ↦ ?_, ih _⟩
      obtain ⟨entry, hentry, hname⟩ := List.mem_map.mp hmem
      exact name_notMem_of_mem_distinct hentry (hname ▸ List.mem_cons_self)

/-- An entry with a new name stands after what the entries before it leave, and nothing after it has
a name of theirs. -/
theorem distinct_split {seen : List String} {before : List Entry} (after : List Entry)
    (hseen : entry.name ∉ seen) (hbefore : ∀ other ∈ before, other.name ≠ entry.name) :
    ∃ back, distinct seen (before ++ entry :: after) = distinct seen before ++ entry :: back ∧
      ∀ other ∈ back, other.name ∉ seen ∧ ∀ earlier ∈ before, earlier.name ≠ other.name := by
  induction before generalizing seen with
  | nil =>
    have hmade : distinct seen (entry :: after) =
        entry :: distinct (entry.name :: seen) after := by
      rw [distinct, if_neg (by simpa using hseen)]
    have hnone : ∀ other : Entry, ∀ earlier ∈ ([] : List Entry), earlier.name ≠ other.name :=
      fun _ _ hmem ↦ absurd hmem List.not_mem_nil
    refine ⟨_, hmade, fun other hother ↦ ⟨fun hmem ↦ ?_, hnone other⟩⟩
    exact name_notMem_of_mem_distinct hother (List.mem_cons_of_mem _ hmem)
  | cons first before ih =>
    obtain ⟨hfirst, hrest⟩ := List.forall_mem_cons.mp hbefore
    rw [List.cons_append, distinct, distinct]
    split
    case isTrue hknown =>
      obtain ⟨back, hsplit, hback⟩ := ih hseen hrest
      refine ⟨back, hsplit, fun other hother ↦ ?_⟩
      obtain ⟨hnew, hnames⟩ := hback other hother
      refine ⟨hnew, List.forall_mem_cons.mpr ⟨fun heq ↦ hnew ?_, hnames⟩⟩
      rw [← heq]
      simpa using hknown
    case isFalse =>
      obtain ⟨back, hsplit, hback⟩ :=
        ih (List.not_mem_cons_of_ne_of_not_mem hfirst.symm hseen) hrest
      refine ⟨back, congrArg (first :: ·) hsplit, fun other hother ↦ ?_⟩
      obtain ⟨hnew, hnames⟩ := hback other hother
      obtain ⟨hne, hold⟩ := not_or.mp (mt List.mem_cons.mpr hnew)
      exact ⟨hold, List.forall_mem_cons.mpr ⟨Ne.symm hne, hnames⟩⟩

theorem mem_names_distinct (seen : List String) {entries : List Entry} (h : entry ∈ entries) :
    entry.name ∈ seen ∨ entry.name ∈ (distinct seen entries).map Entry.name := by
  induction entries generalizing seen with
  | nil => cases h
  | cons first entries ih =>
    rw [distinct]
    rcases List.mem_cons.mp h with rfl | hrest
    · split
      case isTrue hknown => exact Or.inl (by simpa using hknown)
      case isFalse => exact Or.inr List.mem_cons_self
    · split
      case isTrue => exact ih seen hrest
      case isFalse =>
        rcases ih (first.name :: seen) hrest with hmem | hmem
        · rcases List.mem_cons.mp hmem with heq | hseen
          · exact Or.inr (List.mem_cons.mpr (Or.inl heq))
          · exact Or.inl hseen
        · exact Or.inr (List.mem_cons_of_mem _ hmem)

/-- A page lists the direct children of the listing that its links lead to: no name fails the check
that is made of it, none comes twice, each entry is shown by a link and stands in the place of the
first link that shows its name. -/
theorem extracts_direct_children (hlisting : listing.path.text.getLast? = some '/')
    (page : String) :
    collect listing [] (Anchor.links page) = .ok (extractEntries listing page) ∧
    ((extractEntries listing page).map Entry.name).Nodup ∧
    (∀ entry ∈ extractEntries listing page, ∃ link ∈ Anchor.links page,
      Shows listing link entry) ∧
    (∀ link ∈ Anchor.links page, ∀ entry, Shows listing link entry →
      entry.name ∈ (extractEntries listing page).map Entry.name) ∧
    ∀ before link after entry, Anchor.links page = before ++ link :: after →
      Shows listing link entry →
      (∀ earlier ∈ before, ∀ other, Shows listing earlier other → other.name ≠ entry.name) →
      ∃ front back, extractEntries listing page = front ++ entry :: back ∧
        (∀ other ∈ front, ∃ earlier ∈ before, Shows listing earlier other) ∧
        ∀ other ∈ back, ∀ earlier ∈ before, ∀ shown, Shows listing earlier shown →
          shown.name ≠ other.name := by
  simp only [shows_iff hlisting]
  refine ⟨collect_eq listing [] _, nodup_distinct [] _, fun entry ↦ exists_link_of_mem,
    fun link hlink entry hentry ↦ ?_, fun before link after entry hlinks hentry hfirst ↦ ?_⟩
  · have hfound : entry ∈ (Anchor.links page).filterMap (entryOf listing) :=
      List.mem_filterMap.mpr ⟨link, hlink, hentry⟩
    exact (mem_names_distinct [] hfound).resolve_left List.not_mem_nil
  · have hsifted : (Anchor.links page).filterMap (entryOf listing) =
        before.filterMap (entryOf listing) ++ entry :: after.filterMap (entryOf listing) := by
      rw [hlinks, List.filterMap_append, List.filterMap_cons_some hentry]
    have hnames : ∀ other ∈ before.filterMap (entryOf listing), other.name ≠ entry.name := by
      intro other hother
      obtain ⟨earlier, hearlier, hshown⟩ := List.mem_filterMap.mp hother
      exact hfirst earlier hearlier other hshown
    obtain ⟨back, hsplit, hback⟩ :=
      distinct_split (after.filterMap (entryOf listing)) List.not_mem_nil hnames
    refine ⟨_, back, (congrArg (distinct []) hsifted).trans hsplit, fun other hother ↦ ?_,
      fun other hother earlier hearlier shown hshown ↦ ?_⟩
    · exact List.mem_filterMap.mp (mem_of_mem_distinct hother)
    · exact (hback other hother).2 shown (List.mem_filterMap.mpr ⟨earlier, hearlier, hshown⟩)

/-- Of the way up, a link to the side, one that goes deeper and two to the same child, the page lists
that child, as the first of its links shows it. -/
theorem extracts_direct_children_mixed : ∃ listing : Url, Url.parse "http://h/a/" = .ok listing ∧
    listing.path.text.getLast? = some '/' ∧
    collect listing [] (Anchor.links
      "<a href='../'><a href=/b/><a href=c/d><a href=x%20y/><a href=\"http://h:80/a/x%20y\">") =
        .ok [⟨"x y", true, none⟩] := by
  let listing : Url :=
    { scheme := "http".toList, username := [], password := none, host := .domain ['h'], port := none
      path := .segments [['a'], []], query := none, fragment := none }
  have hlisting : listing.path.text.getLast? = some '/' := by decide
  refine ⟨listing, eq_ok_of_toOption (by decide +kernel), hlisting, ?_⟩
  rw [(extracts_direct_children hlisting _).1]
  exact congrArg Except.ok (by decide +kernel)

end HttpIndex

end DirectoryBrowser

import DirectoryBrowser.Proofs.Http.ListingUrl

/-!
# Entering a listed directory

An entry of a listing has the decoded name of the URL that its link leads to. When
the directory is entered, this name is a part of a backend path and is written as a
segment of a URL again. The segment spells the name, unless the name is cut or has
characters taken out on the way: a backslash separates segments, and line breaks
and tabs are no part of a URL.
-/

namespace DirectoryBrowser

open Text Url

variable {url target listing : Url} {index : HttpIndex} {raw link : List Char} {entry : Entry}
  {path page : String}

namespace Url

/-- What the segments of the path spell. -/
def spelledSegments? (url : Url) : Option (List (List UInt8)) :=
  url.segments?.map (·.map fun segment ↦ percentDecodeBytes (utf8 segment))

/-- Two URLs lead to the same place of the same server, each written in one way or another. -/
def LeadsAlike (a b : Url) : Prop :=
  a.sameOrigin b = true ∧ a.spelledSegments? = b.spelledSegments?

instance (a b : Url) : Decidable (LeadsAlike a b) :=
  inferInstanceAs (Decidable (a.sameOrigin b = true ∧ a.spelledSegments? = b.spelledSegments?))

theorem spelledSegments?_eq {names : List (List Char)} (h : url.path = .segments names) :
    url.spelledSegments? = some (names.map fun segment ↦ percentDecodeBytes (utf8 segment)) := by
  rw [spelledSegments?, segments?, h]
  rfl

theorem sameOrigin_iff {a b : Url} : a.sameOrigin b = true ↔ a.kind = .special ∧
    a.scheme = b.scheme ∧ a.host = b.host ∧ a.effectivePort? = b.effectivePort? := by
  simp [sameOrigin, and_assoc]

theorem sameOrigin_symm {a b : Url} (h : a.sameOrigin b = true) : b.sameOrigin a = true := by
  obtain ⟨hkind, hscheme, hhost, hport⟩ := sameOrigin_iff.mp h
  rw [kind, hscheme] at hkind
  exact sameOrigin_iff.mpr ⟨hkind, hscheme.symm, hhost.symm, hport.symm⟩

end Url

namespace HttpIndex

/-! ### Names -/

/-- Segments of a listing spell the pieces of a text. -/
theorem exists_piece_of_mem {segment : List Char} (h : segment ∈ directorySegments path) :
    ∃ piece, segment = escapedPiece piece ∧
      ∀ c ∈ piece, isSeparator .special c = false ∧ isLineNoise c = false := by
  have hplaced : segment ∈ directorySegments path ++ [[]] := List.mem_append_left _ h
  rw [directorySegments, ← place_concat_nil] at hplaced
  rcases of_mem_place hplaced with hmem | rfl | ⟨escaped, hescaped, rfl, -, -⟩
  · exact absurd hmem List.not_mem_nil
  · exact ⟨[], rfl, fun c hc ↦ absurd hc List.not_mem_nil⟩
  · rcases List.mem_append.mp hescaped with hmem | hmem
    · obtain ⟨piece, hpiece, rfl⟩ := List.mem_map.mp hmem
      refine ⟨piece, rfl, fun c hc ↦ ?_⟩
      obtain ⟨hmem, hwhole⟩ := whole_of_mem_directoryPieces hpiece c hc
      exact ⟨hwhole, by simpa using (List.mem_filter.mp hmem).2⟩
    · exact ⟨[], by rw [List.mem_singleton.mp hmem]; rfl, fun c hc ↦ absurd hc List.not_mem_nil⟩

/-- A name without separators and line breaks is one segment of its own. -/
theorem directorySegments_join {name : String} (hname : Path.IsName name)
    (hentry : isEntryName name = true)
    (hclean : ∀ c ∈ name.toList, c ≠ '\\' ∧ isLineNoise c = false) (path : String) :
    directorySegments (Path.join path name) =
      directorySegments path ++ [escapedPiece name.toList] := by
  have hkept : name.toList.filter (fun c ↦ !isLineNoise c) = name.toList :=
    List.filter_eq_self.mpr fun c hc ↦ by rw [(hclean c hc).2]; rfl
  have hwhole : ∀ c ∈ name.toList, isSeparator .special c = false := by
    intro c hc
    have hslash : c ≠ '/' := fun heq ↦ hname.2 (heq ▸ hc)
    simp [isSeparator, hslash, (hclean c hc).1]
  have hdots : name.toList ≠ ['.'] ∧ name.toList ≠ ['.', '.'] := by
    simp only [isEntryName, Bool.and_eq_true, bne_iff_ne] at hentry
    exact ⟨fun h ↦ hentry.1.1 (String.toList_inj.mp h), fun h ↦ hentry.1.2 (String.toList_inj.mp h)⟩
  have hpieces : directoryPieces .special ((dropTrailing Path.isSlash path.toList ++
      '/' :: name.toList).filter fun c ↦ !isLineNoise c) =
      directoryPieces .special ((dropTrailing Path.isSlash path.toList).filter
        fun c ↦ !isLineNoise c) ++ [name.toList] := by
    rw [List.filter_append, List.filter_cons_of_pos (by decide), hkept,
      directoryPieces_append _ hwhole]
  rw [directorySegments, Path.toList_join path hname, Path.dropTrailing_append_name _ hname,
    hpieces,
    List.map_append, List.foldl_append, directorySegments]
  have henter (above : List (List Char)) :
      enter above (escapePercent name.toList) = escapedPiece name.toList :: above := by
    have hsingle := isSingleDot_escapedPiece hdots.1
    have hdouble := isDoubleDot_escapedPiece hdots.2
    unfold escapedPiece at hsingle hdouble ⊢
    rw [enter, hsingle, hdouble]
    rfl
  rw [List.map_singleton, List.foldl_cons, List.foldl_nil, henter, List.reverse_cons]

/-! ### Links -/

/-- A link as it stands in the page, with its ampersands. -/
def linkText (link : List Char) : String :=
  String.ofList (replaceAll "&amp;".toList ['&'] link)

/-- Ampersands are written out, which changes nothing at the beginning of a link. -/
theorem head?_linkText (link : List Char) : (linkText link).toList.head? = link.head? := by
  have hne : "&amp;".toList ≠ [] := by decide
  unfold linkText
  rw [String.toList_ofList]
  induction link using occurrence_induction hne with
  | nil => rw [replaceAll_nil]
  | occurs rest _ =>
    rw [replaceAll_of_occurs hne]
    rfl
  | stays c cs hstays _ =>
    rw [replaceAll_of_stays hstays]
    rfl

theorem isReference_iff (link : List Char) :
    ((linkText link).toList.isEmpty || (linkText link).toList.head? == some '?' ||
      (linkText link).toList.head? == some '#') = false ↔
    link ≠ [] ∧ link.head? ≠ some '?' ∧ link.head? ≠ some '#' := by
  rw [head?_linkText]
  cases link with
  | nil => simp [linkText]
  | cons c rest =>
    obtain ⟨tail, htail⟩ := List.head?_eq_some_iff.mp (head?_linkText (c :: rest))
    simp [htail]

/-- What a link has to pass to be an entry. -/
theorem entryOf_eq_some_iff : entryOf listing link = some entry ↔
    (link ≠ [] ∧ link.head? ≠ some '?' ∧ link.head? ≠ some '#') ∧
    ∃ target raw, listing.join (linkText link) = .ok target ∧ target.sameOrigin listing = true ∧
      childOf listing target = some (raw, entry.isDir) ∧
      isEntryName (percentDecode (String.ofList raw)) = true ∧
      entry = ⟨percentDecode (String.ofList raw), entry.isDir, none⟩ := by
  have hchars : replaceAll "&amp;".toList ['&'] link = (linkText link).toList :=
    String.toList_ofList.symm
  rw [← isReference_iff, entryOf]
  dsimp only
  rw [hchars, String.ofList_toList]
  split
  case isTrue hskipped => simp [hskipped]
  case isFalse hreference =>
    rw [Bool.not_eq_true] at hreference
    cases hjoin : listing.join (linkText link) with
    | error error => simp
    | ok target =>
      by_cases horigin : target.sameOrigin listing = true
      · cases hchild : childOf listing target with
        | none => simp [horigin, hchild]
        | some child =>
          obtain ⟨raw, isDir⟩ := child
          obtain ⟨name, isDirectory, info⟩ := entry
          simp [hreference, horigin, hchild, and_left_comm, eq_comm (a := name), eq_comm (a := info)]
      · simp [horigin]

theorem entryOf_eq_some (h : entryOf listing link = some entry) :
    ∃ target raw, listing.join (linkText link) = .ok target ∧ target.sameOrigin listing = true ∧
      childOf listing target = some (raw, entry.isDir) ∧
      entry.name = percentDecode (String.ofList raw) ∧ isEntryName entry.name = true := by
  obtain ⟨-, target, raw, hjoin, horigin, hchild, hname, hentry⟩ := entryOf_eq_some_iff.mp h
  have heq : entry.name = percentDecode (String.ofList raw) := congrArg Entry.name hentry
  exact ⟨target, raw, hjoin, horigin, hchild, heq, heq ▸ hname⟩

theorem mem_of_mem_distinct {seen : List String} {entries : List Entry}
    (h : entry ∈ distinct seen entries) : entry ∈ entries := by
  induction entries generalizing seen with
  | nil => exact h
  | cons first entries ih =>
    rw [distinct] at h
    split at h
    · exact List.mem_cons_of_mem first (ih h)
    · rcases List.mem_cons.mp h with rfl | hrest
      · exact List.mem_cons_self
      · exact List.mem_cons_of_mem first (ih hrest)

theorem exists_link_of_mem (h : entry ∈ extractEntries listing page) :
    ∃ link ∈ Anchor.links page, entryOf listing link = some entry :=
  List.mem_filterMap.mp (mem_of_mem_distinct h)

/-- The link of a directory leads to one segment more than the listing has. -/
theorem segments_of_childOf {names front : List (List Char)}
    (htarget : target.path = .segments names) (hnames : ∀ name ∈ names, IsSettled name)
    (hlisting : listing.path = .segments (front ++ [[]]))
    (hfront : ∀ name ∈ front, IsSettled name) (h : childOf listing target = some (raw, true)) :
    names = front ++ [raw] ++ [[]] ∧ raw ≠ [] := by
  unfold childOf at h
  split at h
  · cases h
  rename_i rest hrest
  have hbegins := Path.dropStart?_eq_some_iff.mp hrest
  cases hends : dropEnd? ['/'] rest with
  | none => simp [hends] at h
  | some name =>
    have hname : name ≠ [] ∧ '/' ∉ name ∧ name = raw := by simpa [hends, and_assoc] using h
    obtain ⟨hne, hslash, rfl⟩ := hname
    have hrestChars : rest = name ++ ['/'] := Path.dropEnd?_eq_some_iff.mp hends
    refine ⟨flatMap_slash_inj (fun other hother ↦ (hnames other hother).slash_notMem) ?_ ?_, hne⟩
    · simp only [List.forall_mem_append, List.forall_mem_singleton]
      exact ⟨⟨fun other hother ↦ (hfront other hother).slash_notMem, hslash⟩, List.not_mem_nil⟩
    · rw [htarget, hlisting, hrestChars] at hbegins
      simpa [UrlPath.text] using hbegins

/-! ### Requests -/

theorem isSettled_directorySegments (path : String) :
    ∀ segment ∈ directorySegments path, IsSettled segment := by
  intro segment hsegment
  have hplaced : segment ∈ directorySegments path ++ [[]] := List.mem_append_left _ hsegment
  rw [directorySegments, ← directoryPieces_escapePercent, ← place_concat_nil] at hplaced
  refine isSettled_place (fun _ h ↦ absurd h List.not_mem_nil) ?_ segment hplaced
  simp only [List.forall_mem_append, List.forall_mem_singleton]
  exact ⟨fun piece hpiece c hc ↦ (whole_of_mem_directoryPieces hpiece c hc).2,
    fun c hc ↦ absurd hc List.not_mem_nil⟩

theorem Opened.path_listingUrl (h : index.Opened) (path : String) :
    (index.listingUrl path).path = .segments (directorySegments path ++ [[]]) := by
  rw [h.listingUrl_eq]

theorem Opened.sameOrigin_listingUrl (h : index.Opened) (path other : String) (target : Url) :
    (index.listingUrl path).sameOrigin target = (index.listingUrl other).sameOrigin target := by
  rw [h.listingUrl_eq, h.listingUrl_eq]
  rfl

/-- A request leads where a segment that spells its name leads, if the name is kept whole. -/
theorem leadsAlike_iff (hopened : index.Opened) {name : String} (hname : isEntryName name = true)
    (horigin : target.sameOrigin (index.listingUrl path) = true)
    (htarget : target.path = .segments (directorySegments path ++ [raw] ++ [[]])) (hne : raw ≠ [])
    (hdecoded : name = percentDecode (String.ofList raw)) :
    LeadsAlike (index.listingUrl (Path.join path name)) target ↔
      (Url.decoded? raw).isSome = true ∧ ∀ c ∈ name.toList, c ≠ '\\' ∧ isLineNoise c = false := by
  have hpath := hopened.path_listingUrl (Path.join path name)
  rw [LeadsAlike, spelledSegments?_eq hpath, spelledSegments?_eq htarget]
  constructor
  -- A segment of a request spells a piece of a path, and pieces have no separators or line breaks.
  · rintro ⟨-, hsame⟩
    obtain ⟨segment, hmem, hsegment⟩ : ∃ segment ∈ directorySegments (Path.join path name),
        percentDecodeBytes (utf8 segment) = percentDecodeBytes (utf8 raw) := by
      rw [Option.some.injEq, List.map_append, List.map_append] at hsame
      rw [← List.mem_map, List.append_cancel_right hsame, List.map_append]
      exact List.mem_append_right _ (List.mem_singleton_self _)
    obtain ⟨piece, rfl, hclean⟩ := exists_piece_of_mem hmem
    have hbytes : text? (percentDecodeBytes (utf8 raw)) = some (String.ofList piece) := by
      rw [text?_eq_some_iff, ← hsegment, (spells_escapedPiece piece).percentDecodeBytes, bytesOf,
        String.toList_ofList]
    have hpiece : name.toList = piece := by
      rw [hdecoded, percentDecode, bytesOf, String.toList_ofList, textLossy_of_text? hbytes,
        String.toList_ofList]
    refine ⟨by rw [Url.decoded?, hbytes]; rfl, fun c hc ↦ ?_⟩
    rw [hpiece] at hc
    obtain ⟨hwhole, hnoise⟩ := hclean c hc
    refine ⟨?_, hnoise⟩
    rintro rfl
    cases hwhole
  · rintro ⟨hsome, hclean⟩
    obtain ⟨text, htext⟩ := Option.isSome_iff_exists.mp hsome
    have hbytes : utf8 text.toList = percentDecodeBytes (utf8 raw) := text?_eq_some_iff.mp htext
    have heq : name = text := by
      rw [hdecoded, percentDecode, bytesOf, String.toList_ofList]
      exact textLossy_of_text? htext
    have hisName : Path.IsName name := by
      refine ⟨hdecoded ▸ percentDecode_ne_empty hne, ?_⟩
      simp only [isEntryName, Bool.and_eq_true, Bool.not_eq_true'] at hname
      simpa using hname.2
    have hraw : percentDecodeBytes (utf8 (escapedPiece name.toList)) =
        percentDecodeBytes (utf8 raw) := by
      rw [(spells_escapedPiece _).percentDecodeBytes, ← hbytes, heq]
    constructor
    · rw [hopened.sameOrigin_listingUrl _ path]
      exact sameOrigin_symm horigin
    · rw [directorySegments_join hisName hname hclean]
      simp only [List.map_append, List.map_singleton, hraw]

/-- Entering a directory of a listing requests the URL that its link leads to exactly if the escapes
of the link spell text, and its name has no backslashes, tabs or line breaks. -/
theorem entering_requests_link (hopened : index.Opened)
    (hentry : entry ∈ extractEntries (index.listingUrl path) page) (hdir : entry.isDir = true) :
    (∃ link ∈ Anchor.links page, entryOf (index.listingUrl path) link = some entry) ∧
    ∀ link ∈ Anchor.links page, entryOf (index.listingUrl path) link = some entry →
      ∃ target raw, (index.listingUrl path).join (linkText link) = .ok target ∧
        childOf (index.listingUrl path) target = some (raw, true) ∧
        (LeadsAlike (index.listingUrl (Path.join path entry.name)) target ↔
          (Url.decoded? raw).isSome = true ∧
            ∀ c ∈ entry.name.toList, c ≠ '\\' ∧ isLineNoise c = false) := by
  refine ⟨exists_link_of_mem hentry, fun link hlink hfound ↦ ?_⟩
  obtain ⟨target, raw, hjoin, horigin, hchild, hname, hisName⟩ := entryOf_eq_some hfound
  rw [hdir] at hchild
  refine ⟨target, raw, hjoin, hchild, ?_⟩
  have hlisting := hopened.path_listingUrl path
  have hsettled := isSettled_directorySegments path
  obtain ⟨names, htarget, -, hnames⟩ : HasSettledPath target := by
    apply hasSettledPath_of_parseFrom hjoin (sameOrigin_iff.mp horigin).1
    rintro page hpage -
    obtain rfl := Option.some.inj hpage
    refine ⟨_, hlisting, by simp, ?_⟩
    simp only [List.forall_mem_append, List.forall_mem_singleton]
    exact ⟨hsettled, isSettled_nil⟩
  obtain ⟨rfl, hne⟩ := segments_of_childOf htarget hnames hlisting hsettled hchild
  exact leadsAlike_iff hopened hisName horigin htarget hne hname

theorem entering_requests_link_spaced : ∃ (index : HttpIndex) (entry : Entry) (target : Url),
    entry ∈ extractEntries (index.listingUrl "/") "<a href=a%20b/>" ∧ entry.name = "a b" ∧
      (index.listingUrl "/").join "a%20b/" = .ok target ∧
      LeadsAlike (index.listingUrl (Path.join "/" entry.name)) target := by
  let url : Url :=
    { scheme := "http".toList, username := [], password := none, host := .domain ['h'], port := none
      path := .segments [[]], query := none, fragment := none }
  let entry : Entry := ⟨"a b", true, none⟩
  let page : Url := { url with path := .segments ["a%20b".toList, []] }
  have hparse : Url.parse "http://h/" = .ok url := eq_ok_of_toOption (by decide +kernel)
  have hopened : (ofUrl url).Opened := ⟨url, .parsed hparse, by decide, rfl⟩
  have hentry : entry ∈ extractEntries ((ofUrl url).listingUrl "/") "<a href=a%20b/>" := by
    decide +kernel
  obtain ⟨-, hall⟩ := entering_requests_link hopened hentry rfl
  obtain ⟨target, raw, hjoin, hchild, hiff⟩ :=
    hall "a%20b/".toList (by decide +kernel) (by decide +kernel)
  have hpage : ((ofUrl url).listingUrl "/").join "a%20b/" = .ok page :=
    eq_ok_of_toOption (by decide +kernel)
  obtain rfl : target = page := Except.ok.inj (hjoin.symm.trans hpage)
  have hraw : childOf ((ofUrl url).listingUrl "/") page = some ("a%20b".toList, true) := by
    decide +kernel
  obtain ⟨rfl, -⟩ := Prod.mk.inj (Option.some.inj (hchild.symm.trans hraw))
  exact ⟨ofUrl url, entry, page, hentry, rfl, hpage,
    hiff.mpr ⟨by decide +kernel, List.forall_iff_forall_mem.mp (by decide)⟩⟩

/-- A backslash in a name becomes a separator on the way back. -/
theorem entering_misses_link : ∃ url target : Url, ∃ entry,
    Url.parse "http://h/" = .ok url ∧ HttpClient.isWeb url = true ∧
      entry ∈ extractEntries ((ofUrl url).listingUrl "/") "<a href=a%5Cb/>" ∧ entry.isDir = true ∧
      ((ofUrl url).listingUrl "/").join "a%5Cb/" = .ok target ∧
      Url.decoded? "a%5Cb".toList = some entry.name ∧
      ¬LeadsAlike ((ofUrl url).listingUrl (Path.join "/" entry.name)) target := by
  let url : Url :=
    { scheme := "http".toList, username := [], password := none, host := .domain ['h'], port := none
      path := .segments [[]], query := none, fragment := none }
  exact ⟨url, { url with path := .segments ["a%5Cb".toList, []] }, ⟨"a\\b", true, none⟩,
    eq_ok_of_toOption (by decide +kernel), by decide, by decide +kernel, rfl,
    eq_ok_of_toOption (by decide +kernel), by decide +kernel, by decide +kernel⟩

end HttpIndex

end DirectoryBrowser

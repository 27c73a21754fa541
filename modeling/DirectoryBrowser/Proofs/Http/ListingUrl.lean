import DirectoryBrowser.Http.Client
import DirectoryBrowser.Proofs.Url.EscapedSegments
import DirectoryBrowser.Proofs.Url.Parsing

/-!
# URLs of listings

The listing of a backend path is requested from the URL of the index with that path
in it, every percent sign of it escaped: an escape that stands in a backend path is
escaped once more. The root of an index is the path of its base URL with its escapes
and without the separators at its end, so its listing is requested from the base URL
only if there are no escapes and only one such separator.
-/

namespace DirectoryBrowser

open Text Url

variable {url : Url} {index : HttpIndex} {front : List (List Char)}

namespace HttpIndex

/-- The index has been opened at the URL of a web page. -/
def Opened (index : HttpIndex) : Prop :=
  ∃ url, Url.Arises url ∧ HttpClient.isWeb url = true ∧ ofUrl url = index

theorem kind_of_isWeb (h : HttpClient.isWeb url = true) : url.kind = .special := by
  have hscheme : url.scheme = "http".toList ∨ url.scheme = "https".toList := by
    simpa [HttpClient.isWeb] using h
  rcases hscheme with heq | heq <;> rw [Url.kind, heq] <;> decide

/-- What comes out of opening an index: nothing of the URL is lost but query and fragment, and its
path ends in a separator. -/
theorem ofUrl_base (harises : Url.Arises url) (hweb : HttpClient.isWeb url = true) :
    ∃ front, (∀ name ∈ front, IsSettled name) ∧
      (ofUrl url).base = { url with
        path := .segments (front ++ [[]]), query := none, fragment := none } ∧
      (front ++ [[]]).flatMap ('/' :: ·) =
        if url.path.text.getLast? = some '/' then url.path.text else url.path.text ++ ['/'] := by
  obtain ⟨names, hnames, hne, hsettled⟩ := harises.hasSettledPath (kind_of_isWeb hweb)
  obtain ⟨front, last, rfl⟩ := (List.eq_nil_or_concat names).resolve_left hne
  rw [List.concat_eq_append] at hnames hsettled
  have hlast := hsettled last (by simp)
  have hfront : ∀ name ∈ front, IsSettled name :=
    fun name hname ↦ hsettled name (List.mem_append_left _ hname)
  have htext : url.path.text = front.flatMap ('/' :: ·) ++ '/' :: last := by
    rw [hnames, UrlPath.text, List.flatMap_append, List.flatMap_singleton]
  by_cases hempty : last = []
  · subst hempty
    have hends : url.path.text.getLast? = some '/' := by simp [htext]
    refine ⟨front, hfront, ?_, ?_⟩
    · simp only [ofUrl, hends, if_true]
      rw [hnames]
    · rw [if_pos hends, htext, List.flatMap_append, List.flatMap_singleton]
  · have hends : url.path.text.getLast? ≠ some '/' := by
      rw [htext]
      exact getLast?_append_cons_ne _ hempty hlast.slash_notMem
    have hall : ∀ name ∈ front ++ [last] ++ [[]], IsSettled name := by
      rw [List.forall_mem_append]
      exact ⟨hsettled, fun name hname ↦ List.mem_singleton.mp hname ▸ isSettled_nil⟩
    have hpath : url.path.text ++ ['/'] = (front ++ [last] ++ [[]]).flatMap ('/' :: ·) := by
      rw [htext]
      simp
    refine ⟨front ++ [last], hsettled, ?_, ?_⟩
    · have hkind : ({ url with query := none, fragment := none } : Url).kind = .special :=
        kind_of_isWeb hweb
      have hset := setPath_of_special hkind hnames (url.pathText ++ "/")
      have hchars : (url.pathText ++ "/").toList = url.path.text ++ ['/'] := by
        rw [String.toList_append, pathText, String.toList_ofList]
        rfl
      rw [hchars, hpath, noiseless_flatMap hall, pathSegments_flatMap (by simp) hall] at hset
      simp only [ofUrl, if_neg hends]
      exact hset
    · rw [if_neg hends, hpath]

/-- Where the listing of a backend path stands: the segments above the last one, which is empty. -/
def directorySegments (path : String) : List (List Char) :=
  (((directoryPieces .special ((dropTrailing Path.isSlash path.toList).filter
    fun c ↦ !isLineNoise c)).map escapePercent).foldl enter []).reverse

theorem toList_directory (path : String) :
    (if Path.normalize path == "/" then Path.normalize path
      else Path.normalize path ++ "/").toList = dropTrailing Path.isSlash path.toList ++ ['/'] := by
  have htwice := dropTrailing_dropTrailing Path.isSlash path.toList
  rw [Path.normalize, Path.normalizeChars]
  cases htrimmed : dropTrailing Path.isSlash path.toList with
  | nil => rfl
  | cons c rest =>
    have hroot : String.ofList (c :: rest) ≠ "/" := by
      intro heq
      have hchars := congrArg String.toList heq
      rw [String.toList_ofList] at hchars
      rw [htrimmed, hchars] at htwice
      cases htwice
    simp only [beq_iff_eq, hroot, if_false, String.toList_append, String.toList_ofList]
    rfl

theorem Opened.base (h : index.Opened) :
    index.base.kind = .special ∧ ∃ front, (∀ name ∈ front, IsSettled name) ∧
      index.base.path = .segments (front ++ [[]]) := by
  obtain ⟨url, harises, hweb, rfl⟩ := h
  obtain ⟨front, hfront, hbase, -⟩ := ofUrl_base harises hweb
  rw [hbase]
  exact ⟨kind_of_isWeb hweb, front, hfront, rfl⟩

/-- Only the path of the base URL is replaced. -/
theorem Opened.listingUrl_eq (h : index.Opened) (path : String) :
    index.listingUrl path =
      { index.base with path := .segments (directorySegments path ++ [[]]) } := by
  obtain ⟨hkind, front, -, hpath⟩ := h.base
  rw [listingUrl, setPath_of_special hkind hpath, String.toList_ofList, toList_directory]
  change ({ index.base with path := UrlPath.segments (pathSegments .special
    ((escapePercent (dropTrailing Path.isSlash path.toList ++ ['/'])).filter _)) } : Url) = _
  rw [filter_escapePercent, List.filter_append, escapePercent_append, pathSegments,
    if_neg (by simp)]
  change ({ index.base with path := UrlPath.segments (place []
    (pieces .special (rooted .special (_ ++ '/' :: [])))) } : Url) = _
  rw [pieces_rooted_append, directoryPieces_escapePercent, pieces, place_concat_nil,
    directorySegments]

/-- The root is a path that is still escaped, and so are its segments, once more. -/
theorem directorySegments_root (hfront : ∀ name ∈ front, IsSettled name)
    (hpath : index.base.path = .segments (front ++ [[]])) :
    directorySegments index.root.path = (front.rdropWhile List.isEmpty).map escapePercent := by
  have hall : ∀ name ∈ front ++ [[]], IsSettled name := by
    rw [List.forall_mem_append]
    exact ⟨hfront, fun name hname ↦ List.mem_singleton.mp hname ▸ isSettled_nil⟩
  have hroot : index.root.path.toList =
      Path.normalizeChars ((front ++ [[]]).flatMap ('/' :: ·)) := by
    rw [root, Path.normalize, String.toList_ofList, pathText, String.toList_ofList,
      withoutCredentials, hpath, UrlPath.text]
  have htrimmed : dropTrailing Path.isSlash index.root.path.toList =
      (front.rdropWhile List.isEmpty).flatMap ('/' :: ·) := by
    rw [hroot, Path.dropTrailing_normalizeChars,
      dropTrailing_flatMap fun name hname ↦ (hall name hname).slash_notMem,
      List.rdropWhile_concat_pos _ _ _ rfl]
  have hkept : ∀ name ∈ front.rdropWhile List.isEmpty, IsSettled name :=
    fun name hname ↦ hfront name ((List.rdropWhile_prefix _ front).subset hname)
  have hescaped : ∀ name ∈ (front.rdropWhile List.isEmpty).map escapePercent, IsSettled name :=
    List.forall_mem_map.mpr fun name hname ↦ (hkept name hname).escapePercent
  rw [directorySegments, htrimmed, noiseless_flatMap hkept,
    directoryPieces_flatMap fun name hname ↦ (hkept name hname).whole,
    foldl_enter_of_isSettled [] hescaped, List.append_nil, List.reverse_reverse]

/-- Two separators at the end of a text leave one after the other is dropped. -/
theorem rdropWhile_isEmpty_eq_self_iff (hfront : ∀ name ∈ front, IsSettled name) :
    front.rdropWhile List.isEmpty = front ↔
      ¬['/', '/'] <:+ (front ++ [[]]).flatMap ('/' :: ·) := by
  have hends : ['/', '/'] <:+ (front ++ [[]]).flatMap ('/' :: ·) ↔
      ∃ others, front = others ++ [[]] := by
    constructor
    · rintro ⟨above, habove⟩
      rcases List.eq_nil_or_concat front with rfl | ⟨others, last, rfl⟩
      · simpa using congrArg List.length habove
      · rw [List.concat_eq_append] at habove hfront
        by_cases hempty : last = []
        · exact ⟨others, by rw [hempty, List.concat_eq_append]⟩
        · have hchars : above ++ ['/'] = others.flatMap ('/' :: ·) ++ '/' :: last := by
            refine List.append_cancel_right (?_ : _ ++ ['/'] = _ ++ ['/'])
            simpa using habove
          have hend := congrArg List.getLast? hchars
          rw [List.getLast?_concat] at hend
          exact absurd hend.symm (getLast?_append_cons_ne _ hempty (hfront last (by simp)).slash_notMem)
    · rintro ⟨others, rfl⟩
      exact ⟨others.flatMap ('/' :: ·), by simp⟩
  rw [List.rdropWhile_eq_self_iff, hends]
  constructor
  · rintro hlast ⟨others, rfl⟩
    simpa using hlast (by simp)
  · intro hother hne hempty
    apply hother
    refine ⟨front.dropLast, ?_⟩
    rw [← List.isEmpty_iff.mp hempty, List.dropLast_append_getLast]

/-- Listing the root requests the base URL exactly if it has no escapes and no empty segments
before its end. -/
theorem listingUrl_root (harises : Url.Arises url) (hweb : HttpClient.isWeb url = true) :
    ∃ path, (ofUrl url).base = { url with path, query := none, fragment := none } ∧
      path.text = (if url.path.text.getLast? = some '/' then url.path.text
        else url.path.text ++ ['/']) ∧
      ((ofUrl url).listingUrl (ofUrl url).root.path = (ofUrl url).base ↔
        '%' ∉ path.text ∧ ¬['/', '/'] <:+ path.text) := by
  obtain ⟨front, hfront, hbase, htext⟩ := ofUrl_base harises hweb
  have hpath : (ofUrl url).base.path = .segments (front ++ [[]]) := by rw [hbase]
  have hopened : (ofUrl url).Opened := ⟨url, harises, hweb, rfl⟩
  refine ⟨.segments (front ++ [[]]), hbase, htext, ?_⟩
  have hescapes : '%' ∉ (UrlPath.segments (front ++ [[]])).text ↔ ∀ name ∈ front, '%' ∉ name := by
    simp [UrlPath.text, List.mem_flatMap]
  rw [hopened.listingUrl_eq, directorySegments_root hfront hpath, hescapes, UrlPath.text,
    ← rdropWhile_isEmpty_eq_self_iff hfront]
  constructor
  · intro h
    have hnames : (front.rdropWhile List.isEmpty).map escapePercent = front := by
      have hsegments := congrArg Url.path h
      rw [hpath, UrlPath.segments.injEq] at hsegments
      exact List.append_cancel_right hsegments
    have hwhole : front.rdropWhile List.isEmpty = front := by
      apply (List.rdropWhile_prefix _ front).eq_of_length
      rw [← congrArg List.length hnames, List.length_map]
    refine ⟨fun name hname ↦ ?_, hwhole⟩
    rw [hwhole] at hnames
    have hsame := List.map_inj_left.mp (hnames.trans (List.map_id front).symm) name hname
    exact escapePercent_eq_self_iff.mp hsame
  · rintro ⟨hnames, hwhole⟩
    rw [hwhole, List.map_congr_left fun name hname ↦ escapePercent_of_notMem (hnames name hname),
      List.map_id', ← hpath]

theorem listingUrl_root_plain : ∃ url, Url.parse "http://h/a?q#f" = .ok url ∧
    HttpClient.isWeb url = true ∧
      (ofUrl url).listingUrl (ofUrl url).root.path = (ofUrl url).base := by
  let url : Url :=
    { scheme := "http".toList, username := [], password := none, host := .domain ['h'], port := none
      path := .segments [['a']], query := some ['q'], fragment := some ['f'] }
  have hparse : Url.parse "http://h/a?q#f" = .ok url := eq_ok_of_toOption (by decide +kernel)
  obtain ⟨path, -, htext, hsame⟩ := listingUrl_root (.parsed hparse) (by decide)
  refine ⟨url, hparse, by decide, hsame.mpr ?_⟩
  rw [htext]
  decide

/-- A space in the path of the base URL is escaped, and so is its escape. -/
theorem listingUrl_root_escaped : ∃ url, Url.parse "http://h/a%20b/" = .ok url ∧
    HttpClient.isWeb url = true ∧
      (ofUrl url).listingUrl (ofUrl url).root.path ≠ (ofUrl url).base := by
  let url : Url :=
    { scheme := "http".toList, username := [], password := none, host := .domain ['h'], port := none
      path := .segments ["a%20b".toList, []], query := none, fragment := none }
  exact ⟨url, eq_ok_of_toOption (by decide +kernel), by decide, by decide +kernel⟩

end HttpIndex

end DirectoryBrowser

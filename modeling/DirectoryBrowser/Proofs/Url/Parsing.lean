import DirectoryBrowser.Proofs.Text.Numerals
import DirectoryBrowser.Proofs.Url.Segments

/-!
# How URLs come about

A URL that is read has an authority of its own, or names a file, or is one without
a host, or is a page that has been given another path. So whatever holds of every
authority, and is kept when a path is placed anew, holds of every URL: the path of
a URL with a server consists of settled segments, and its host and its port are
ones that the readers of hosts and ports have accepted.
-/

namespace DirectoryBrowser.Url

open Text

variable {url page : Url} {base : Option Url} {scheme text input : List Char} {ref : Reference}

/-! ### Authorities -/

theorem parseAuthority_ok (h : parseAuthority scheme ref text = .ok url) :
    url.scheme = scheme ∧
    (∃ hostText, readHost (Scheme.kind scheme) hostText = .ok url.host) ∧
    (∃ portText rest, readPort scheme portText = .ok (url.port, rest)) ∧
    ∃ pathText, url.path = .segments (pathSegments (Scheme.kind scheme) pathText) := by
  unfold parseAuthority at h
  simp only [bind, Except.bind, pure, Except.pure, throw, throwThe, MonadExceptOf.throw] at h
  generalize cutLogin (text.takeWhile fun c ↦ !isSeparator (Scheme.kind scheme) c) = login at h
  generalize cutHost false login.2 = place at h
  split at h
  · cases h
  split at h
  · cases h
  split at h
  · cases h
  rename_i host hhost
  split at h
  · cases h
  split at h
  · cases h
  rename_i port hport
  split at h
  · cases h
  obtain rfl := Except.ok.inj h
  exact ⟨rfl, ⟨_, hhost⟩, ⟨_, _, hport⟩, _, rfl⟩

/-- An authority is read part by part, as long as it has a host. -/
theorem parseAuthority_of {login : Option (List Char) × List Char}
    {place : List Char × Option (List Char)} {host : Host} {port : Option Nat × List Char}
    (hlogin : cutLogin (text.takeWhile fun c ↦ !isSeparator (Scheme.kind scheme) c) = login)
    (hplace : cutHost false login.2 = place) (hne : place.1 ≠ [])
    (hhost : readHost (Scheme.kind scheme) place.1 = .ok host) (hnamed : host ≠ .empty)
    (hport : readPort scheme place.2 = .ok port) :
    parseAuthority scheme ref text = .ok
      { scheme, username := (parseUserinfo (login.1.getD [])).1
        password := (parseUserinfo (login.1.getD [])).2, host, port := port.1
        path := .segments (pathSegments (Scheme.kind scheme)
          (port.2 ++ text.dropWhile fun c ↦ !isSeparator (Scheme.kind scheme) c))
        query := ref.escapedQuery (Scheme.kind scheme), fragment := ref.escapedFragment } := by
  have hserver : login.2 ≠ [] := by
    intro hnil
    rw [hnil] at hplace
    exact hne (congrArg Prod.fst hplace).symm
  unfold parseAuthority
  simp only [bind, Except.bind, pure, Except.pure, throw, throwThe, MonadExceptOf.throw, hlogin,
    hplace, hhost, hport, hnamed, decide_false, Bool.false_and, Bool.false_eq_true, if_false,
    List.isEmpty_eq_false_iff.mpr hserver, List.isEmpty_eq_false_iff.mpr hne, Bool.and_false]

/-! ### References -/

/-- The path of a page, or one placed after some of its segments. -/
inductive Beside (page : Url) : UrlPath → Prop
  | same : Beside page page.path
  | placed {names above : List (List Char)} (text : List Char) (hpage : page.path = .segments names)
      (habove : above ⊆ names) : Beside page (.segments (place above (pieces page.kind text)))

theorem parseRelative_ok {names : List (List Char)} (hpage : page.path = .segments names)
    (h : parseRelative page names ref = .ok url) :
    (∃ text, parseAuthority page.scheme ref text = .ok url) ∨
    ∃ path query fragment, Beside page path ∧ url = { page with path, query, fragment } := by
  have hroot (text : List Char) : Beside page (.segments (place [] (pieces page.kind text))) :=
    .placed text hpage (List.nil_subset names)
  unfold parseRelative at h
  split at h
  · exact Or.inr ⟨_, _, _, .same, (Except.ok.inj h).symm⟩
  · dsimp only at h
    split at h
    · have habove : names.dropLast.reverse ⊆ names := fun name hname ↦
        (List.dropLast_sublist names).subset (List.mem_reverse.mp hname)
      exact Or.inr ⟨_, _, _, .placed _ hpage habove, (Except.ok.inj h).symm⟩
    · split at h
      · split at h
        · exact Or.inl ⟨_, h⟩
        · exact Or.inr ⟨_, _, _, hroot _, (Except.ok.inj h).symm⟩
      · exact Or.inr ⟨_, _, _, hroot _, (Except.ok.inj h).symm⟩

theorem parseFile_ok (h : parseFile scheme ref = .ok url) :
    url.scheme = scheme ∧ ∃ names, url.path = .segments names := by
  unfold parseFile at h
  simp only [bind, Except.bind, pure, Except.pure] at h
  split at h
  · split at h
    · split at h
      · exact (Except.ok.inj h) ▸ ⟨rfl, _, rfl⟩
      · split at h
        · exact (Except.ok.inj h) ▸ ⟨rfl, _, rfl⟩
        · split at h
          · cases h
          · exact (Except.ok.inj h) ▸ ⟨rfl, _, rfl⟩
    · exact (Except.ok.inj h) ▸ ⟨rfl, _, rfl⟩
  · exact (Except.ok.inj h) ▸ ⟨rfl, _, rfl⟩

theorem parseAbsolute_ok (h : parseAbsolute scheme ref = .ok url) :
    (∃ text, parseAuthority scheme ref text = .ok url) ∨ url.kind = .file ∨
      (url.kind = .ordinary ∧ url.host = .absent ∧ url.port = none) := by
  unfold parseAbsolute at h
  cases hkind : Scheme.kind scheme with
  | special =>
    simp only [hkind] at h
    exact Or.inl ⟨_, h⟩
  | ordinary =>
    simp only [hkind] at h
    split at h
    · exact Or.inl ⟨_, h⟩
    · obtain rfl := Except.ok.inj h
      exact Or.inr (Or.inr ⟨hkind, rfl, rfl⟩)
  | file =>
    simp only [hkind] at h
    exact Or.inr (Or.inl (by rw [kind, (parseFile_ok h).1, hkind]))

/-- Only a URL without a host has a path that is one whole text. -/
theorem exists_segments_of_parse {input : String} (h : parse input = .ok url)
    (hnamed : url.host.isNamed = true) : ∃ names, url.path = .segments names := by
  have habsolute {scheme : List Char} {ref : Reference} (h : parseAbsolute scheme ref = .ok url) :
      ∃ names, url.path = .segments names := by
    unfold parseAbsolute at h
    split at h
    · exact (parseFile_ok h).2
    · obtain ⟨-, -, -, text, hpath⟩ := parseAuthority_ok h
      exact ⟨_, hpath⟩
    · split at h
      · obtain ⟨-, -, -, text, hpath⟩ := parseAuthority_ok h
        exact ⟨_, hpath⟩
      · rw [← Except.ok.inj h] at hnamed
        cases hnamed
  unfold parse parseFrom at h
  dsimp only at h
  split at h
  · exact habsolute h
  · cases h
  · contradiction

/-- Every way to read a URL. -/
theorem parseFrom_ok {input : String} (h : parseFrom base input = .ok url) :
    (∃ scheme ref text, parseAuthority scheme ref text = .ok url) ∨ url.kind = .file ∨
    (url.kind = .ordinary ∧ url.host = .absent ∧ url.port = none) ∨
    ∃ page path query fragment, base = some page ∧ Beside page path ∧
      url = { page with path, query, fragment } := by
  have habsolute {scheme : List Char} {ref : Reference} (h : parseAbsolute scheme ref = .ok url) :
      (∃ scheme ref text, parseAuthority scheme ref text = .ok url) ∨ url.kind = .file ∨
      (url.kind = .ordinary ∧ url.host = .absent ∧ url.port = none) ∨
      ∃ page path query fragment, base = some page ∧ Beside page path ∧
        url = { page with path, query, fragment } := by
    rcases parseAbsolute_ok h with ⟨text, hauthority⟩ | hfile | hhostless
    · exact Or.inl ⟨scheme, ref, text, hauthority⟩
    · exact Or.inr (Or.inl hfile)
    · exact Or.inr (Or.inr (Or.inl hhostless))
  have hrelative {page : Url} {names : List (List Char)} {ref : Reference}
      (hbase : base = some page) (hpage : page.path = .segments names)
      (h : parseRelative page names ref = .ok url) :
      (∃ scheme ref text, parseAuthority scheme ref text = .ok url) ∨ url.kind = .file ∨
      (url.kind = .ordinary ∧ url.host = .absent ∧ url.port = none) ∨
      ∃ page path query fragment, base = some page ∧ Beside page path ∧
        url = { page with path, query, fragment } := by
    rcases parseRelative_ok hpage h with ⟨text, hauthority⟩ | ⟨path, query, fragment, hpath, hurl⟩
    · exact Or.inl ⟨page.scheme, ref, text, hauthority⟩
    · exact Or.inr (Or.inr (Or.inr ⟨page, path, query, fragment, hbase, hpath, hurl⟩))
  unfold parseFrom at h
  dsimp only at h
  split at h
  · split at h
    · split at h
      case h_1 names hnames =>
        split_ifs at h
        · exact hrelative rfl hnames h
        · exact habsolute h
      case h_2 => exact habsolute h
    · exact habsolute h
  · cases h
  · split at h
    case h_1 names hnames => exact hrelative rfl hnames h
    case h_2 page _ _ _ _ =>
      split_ifs at h
      · exact Or.inr (Or.inr (Or.inr ⟨page, _, _, _, rfl, .same, (Except.ok.inj h).symm⟩))

/-! ### Whatever is read -/

/-- A URL that a program has come by: read off a text, followed from a page, or given another
path. -/
inductive Arises : Url → Prop
  | parsed {text : String} {url : Url} (h : parse text = .ok url) : Arises url
  | joined {page url : Url} {link : String} (hpage : Arises page) (h : page.join link = .ok url) :
      Arises url
  | withPath {url : Url} (h : Arises url) (path : String) : Arises (url.setPath path)

/-- Results can be compared when their errors are left out. -/
theorem eq_ok_of_toOption {ε α : Type} {result : Except ε α} {value : α}
    (h : result.toOption = some value) : result = .ok value := by
  cases result with
  | error _ => cases h
  | ok found => exact congrArg Except.ok (Option.some.inj h)

/-- The path of a URL with a server. -/
def HasSettledPath (url : Url) : Prop :=
  ∃ names, url.path = .segments names ∧ names ≠ [] ∧ ∀ name ∈ names, IsSettled name

/-- The host and the port of a URL have been read. -/
structure HasServer (url : Url) : Prop where
  host : (∃ text, readHost url.kind text = .ok url.host) ∨ url.kind ≠ .special ∧ url.host = .absent
  port : ∀ port, url.port = some port →
    port < UInt16.size ∧ Scheme.defaultPort? url.scheme ≠ some port

/-- Nothing but the path is replaced. -/
theorem setPath_eq (url : Url) (path : String) :
    url.setPath path = { url with path := (url.setPath path).path } := by
  unfold setPath
  cases url.path <;> rfl

theorem setPath_of_special {names : List (List Char)} (hkind : url.kind = .special)
    (hpath : url.path = .segments names) (path : String) :
    url.setPath path = { url with
      path := .segments (pathSegments .special (path.toList.filter fun c ↦ !isLineNoise c)) } := by
  unfold setPath
  simp only [hpath, hkind]
  rfl

theorem Beside.hasSettledPath {path : UrlPath} {query fragment : Option (List Char)}
    (h : Beside page path) (hkind : page.kind = .special) (hpage : HasSettledPath page) :
    HasSettledPath { page with path, query, fragment } := by
  obtain ⟨names, hnames, hne, hsettled⟩ := hpage
  cases h with
  | same => exact ⟨names, hnames, hne, hsettled⟩
  | @placed others above text hothers habove =>
    rw [hnames, UrlPath.segments.injEq] at hothers
    subst hothers
    rw [hkind]
    refine ⟨_, rfl, place_ne_nil above (pieces_ne_nil _ _), isSettled_place ?_ ?_⟩
    · exact fun segment hsegment ↦ hsettled segment (habove hsegment)
    · exact fun piece hpiece c hc ↦ (whole_of_mem_pieces hpiece c hc).2

theorem hasSettledPath_of_parseFrom {input : String} (h : parseFrom base input = .ok url)
    (hkind : url.kind = .special)
    (hbase : ∀ page, base = some page → page.kind = .special → HasSettledPath page) :
    HasSettledPath url := by
  rcases parseFrom_ok h with ⟨scheme, ref, text, hauthority⟩ | hfile | ⟨hordinary, -⟩ |
    ⟨page, path, query, fragment, hpage, hpath, rfl⟩
  · obtain ⟨hscheme, -, -, pathText, hpath⟩ := parseAuthority_ok hauthority
    rw [← hscheme, show Scheme.kind url.scheme = .special from hkind] at hpath
    exact ⟨_, hpath, pathSegments_ne_nil pathText, isSettled_pathSegments pathText⟩
  · rw [hfile] at hkind
    cases hkind
  · rw [hordinary] at hkind
    cases hkind
  · exact hpath.hasSettledPath hkind (hbase page hpage hkind)

theorem Arises.hasSettledPath (h : Arises url) (hkind : url.kind = .special) :
    HasSettledPath url := by
  induction h with
  | parsed h =>
    exact hasSettledPath_of_parseFrom h hkind fun _ hpage ↦ nomatch hpage
  | joined _ h ih =>
    apply hasSettledPath_of_parseFrom h hkind
    rintro page hpage hspecial
    obtain rfl := Option.some.inj hpage
    exact ih hspecial
  | @withPath url _ path ih =>
    have hspecial : url.kind = .special := by
      rw [setPath_eq] at hkind
      exact hkind
    obtain ⟨names, hnames, -, -⟩ := ih hspecial
    rw [setPath_of_special hspecial hnames]
    exact ⟨_, rfl, pathSegments_ne_nil _, isSettled_pathSegments _⟩

theorem port_of_readPort {portText : Option (List Char)} {port : Nat} {rest : List Char}
    (h : readPort scheme portText = .ok (some port, rest)) :
    port < UInt16.size ∧ Scheme.defaultPort? scheme ≠ some port := by
  unfold readPort at h
  split at h
  · unfold parsePort at h
    simp only at h
    split_ifs at h with hrest
    split at h
    · cases h
    · split at h
      · cases h
      case h_2 found hfound =>
        obtain ⟨hport, -⟩ := Prod.mk.inj (Except.ok.inj h)
        split_ifs at hport with hdefault
        obtain rfl := Option.some.inj hport
        exact ⟨lt_of_numeral? hfound, hdefault⟩
  · cases h

theorem Arises.hasServer (h : Arises url) (hkind : url.kind ≠ .file) : HasServer url := by
  have hparsed {base : Option Url} {input : String} {url : Url} (h : parseFrom base input = .ok url)
      (hkind : url.kind ≠ .file) (hbase : ∀ page, base = some page → page.kind ≠ .file →
        HasServer page) : HasServer url := by
    rcases parseFrom_ok h with ⟨scheme, ref, text, hauthority⟩ | hfile |
      ⟨hordinary, habsent, hport⟩ | ⟨page, path, query, fragment, hpage, -, rfl⟩
    · obtain ⟨rfl, ⟨hostText, hhost⟩, ⟨portText, rest, hport⟩, -⟩ := parseAuthority_ok hauthority
      refine ⟨Or.inl ⟨hostText, hhost⟩, fun port hsome ↦ ?_⟩
      rw [hsome] at hport
      exact port_of_readPort hport
    · exact absurd hfile hkind
    · refine ⟨Or.inr ⟨by simp [hordinary], habsent⟩, fun port hsome ↦ ?_⟩
      rw [hport] at hsome
      cases hsome
    · exact ⟨(hbase page hpage hkind).host, (hbase page hpage hkind).port⟩
  induction h with
  | parsed h => exact hparsed h hkind fun _ hpage ↦ nomatch hpage
  | joined _ h ih =>
    apply hparsed h hkind
    rintro page hpage hother
    obtain rfl := Option.some.inj hpage
    exact ih hother
  | @withPath url _ path ih =>
    rw [setPath_eq] at hkind ⊢
    exact ⟨(ih hkind).host, (ih hkind).port⟩

end DirectoryBrowser.Url

import DirectoryBrowser.Location
import DirectoryBrowser.Proofs.Url.Hosts

/-!
# Endpoints of file servers

The key of a root writes a server as scheme, host and port. The scheme tells TLS from
none but not one kind of it from the other, and the port that is left out depends on
the kind. So a key belongs to one endpoint as long as the kind is known: an endpoint
with implicit TLS shares its key with another one, and is never the one that its own
key leads to.
-/

namespace DirectoryBrowser

open Text Url

namespace Url

variable {scheme hostText : List Char} {kind : SchemeKind} {host : Host} {port : Option Nat}

/-- The top of a server. -/
def top (scheme : List Char) (host : Host) (port : Option Nat) : Url :=
  { scheme, username := [], password := none, host, port, path := .segments [[]], query := none
    fragment := none }

theorem chars_top (hnamed : host.isNamed = true) :
    (top scheme host port).chars =
      scheme ++ ':' :: '/' :: '/' :: ((host.text ++ (top scheme host port).portText) ++ ['/']) := by
  have hauthority : (top scheme host port).authorityText =
      '/' :: '/' :: (host.text ++ (top scheme host port).portText) := by
    cases host with
    | absent => cases hnamed
    | empty => cases hnamed
    | domain | ipv4 | ipv6 => rfl
  rw [chars, hauthority]
  simp [top, UrlPath.text]

/-- Hosts that are written in the same way make the same text. -/
theorem chars_top_congr {other : Host} (hnamed : host.isNamed = true)
    (hother : other.isNamed = true) (htext : other.text = host.text) :
    (top scheme other port).chars = (top scheme host port).chars := by
  rw [chars_top hnamed, chars_top hother, htext]
  rfl

theorem parsePort_decimal {n : Nat} (hn : n < UInt16.size)
    (hdefault : Scheme.defaultPort? scheme ≠ some n) :
    parsePort scheme (decimal n) = .ok (some n, []) := by
  have hdigits : ∀ c ∈ decimal n, isDigit c = true := fun c hc ↦ (Host.forall_mem_decimal n c hc).1
  have htake : (decimal n).takeWhile isDigit = decimal n := List.takeWhile_eq_self_iff.mpr hdigits
  have hdrop : (decimal n).dropWhile isDigit = [] := List.dropWhile_eq_nil_iff.mpr hdigits
  have hread : numeral? 10 UInt16.size (decimal n) = some n := by
    rw [decimal_eq]
    exact numeral?_toDigits (by decide) (by decide) hn
  obtain ⟨c, digits, hchars⟩ := List.exists_cons_of_ne_nil (Host.decimal_ne_nil n)
  rw [hchars] at htake hdrop hread ⊢
  simp only [parsePort, htake, hdrop, hread, hdefault, if_false]
  rfl

/-- The port has its place in the text of a URL: it fits, and it is not the one of the scheme. -/
def IsWritten (scheme : List Char) (port : Option Nat) : Prop :=
  ∀ n ∈ port, n < UInt16.size ∧ Scheme.defaultPort? scheme ≠ some n

theorem readPort_decimal (h : IsWritten scheme port) :
    readPort scheme (port.map decimal) = .ok (port, []) := by
  cases port with
  | none => rfl
  | some n => exact parsePort_decimal (h n rfl).1 (h n rfl).2

theorem cutHost_portText {url : Url} (h : PassesHost hostText) :
    cutHost false (hostText ++ url.portText) = (hostText, url.port.map decimal) := by
  rw [portText]
  cases url.port with
  | none =>
    rw [List.append_nil]
    exact h.cutHost_self
  | some n => exact h.cutHost_port (decimal n)

theorem staysInAuthority_portText (url : Url) :
    ∀ c ∈ url.portText, StaysInAuthority c ∧ c ≠ '@' := by
  rw [portText]
  cases url.port with
  | none => exact fun _ hmem ↦ absurd hmem List.not_mem_nil
  | some n =>
    refine List.forall_mem_cons.mpr ⟨by decide, fun c hc ↦ ?_⟩
    have hplain := (Host.forall_mem_decimal n c hc).2.1
    obtain ⟨hstays, -, hat, -⟩ :=
      Host.staysInAuthority_of_staysVerbatim (Host.staysVerbatim_of_isPlain hplain)
    exact ⟨hstays, hat⟩

/-- The text of the top of a server is read as one that is written in the same way. -/
theorem exists_parse_top (hscheme : scheme = "ftp".toList ∨ scheme = "ftps".toList)
    (hhost : readHost kind hostText = .ok host) (hnamed : host.isNamed = true)
    (hkind : kind = .ordinary → Scheme.kind scheme = .ordinary) (hport : IsWritten scheme port) :
    ∃ again, parse (top scheme host port).toText = .ok (top scheme again port) ∧
      again.text = host.text ∧ again.isNamed = true := by
  obtain ⟨again, hread, htext, hagain⟩ := Host.exists_readHost hhost hnamed hkind
  obtain ⟨hstays, hpasses, hne⟩ := Host.stays_of_readHost hhost hnamed
  have hauthority : ∀ c ∈ host.text ++ (top scheme host port).portText,
      StaysInAuthority c ∧ c ≠ '@' :=
    List.forall_mem_append.mpr ⟨hstays, staysInAuthority_portText _⟩
  have hlogin : cutLogin (host.text ++ (top scheme host port).portText) =
      (none, host.text ++ (top scheme host port).portText) := by
    rw [cutLogin, cutLast?_eq_none_iff.mpr fun hat ↦ (hauthority _ hat).2 rfl]
  have hnonempty : again ≠ .empty := by
    rintro rfl
    cases hagain
  have hpath : pathSegments (Scheme.kind scheme) ['/'] = [[]] := by
    rcases hscheme with rfl | rfl <;> decide
  refine ⟨again, ?_, htext, hagain⟩
  rw [toText, chars_top hnamed, parse_written hscheme (fun c hc ↦ (hauthority c hc).1)
    (fun _ hmem ↦ absurd hmem List.not_mem_nil) hlogin (cutHost_portText hpasses) hne hread
    hnonempty (readPort_decimal hport), hpath]
  rfl

end Url

namespace FtpConfig

variable {config a b : FtpConfig} {host : Host}

/-- The port as it is written, if it is not the one that is understood. -/
def writtenPort? (config : FtpConfig) : Option Nat :=
  if config.port = config.tls.defaultPort then none else some config.port

/-- The settings lead to the top of a server whose host has been read. -/
structure Serves (config : FtpConfig) (host : Host) : Prop where
  rootPath : config.rootPath = "/"
  host_eq : config.host = String.ofList host.text
  named : host.isNamed = true
  port_lt : config.port < UInt16.size
  accepted : ∃ kind text, readHost kind text = .ok host ∧
    (kind = .ordinary → config.tls ≠ .none)

theorem port_eq (config : FtpConfig) :
    config.port = config.writtenPort?.getD config.tls.defaultPort := by
  rw [writtenPort?]
  split_ifs with hdefault
  · exact hdefault
  · rfl

theorem scheme_eq (tls : FtpTls) :
    tls.scheme.toList = "ftp".toList ∨ tls.scheme.toList = "ftps".toList := by
  cases tls <;> decide

theorem isWritten_writtenPort? (hport : config.port < UInt16.size) :
    IsWritten config.tls.scheme.toList config.writtenPort? := by
  intro n hn
  rw [writtenPort?] at hn
  split_ifs at hn with hdefault
  · cases hn
  · obtain rfl := Option.some.inj hn
    refine ⟨hport, ?_⟩
    cases htls : config.tls with
    | none =>
      rw [htls] at hdefault
      intro h
      exact hdefault (Option.some.inj h).symm
    | explicit | implicit =>
      exact fun h ↦ nomatch h

theorem Serves.toText_top (h : config.Serves host) :
    config.tls.scheme ++ "://" ++ config.authority ++ "/" =
      (top config.tls.scheme.toList host config.writtenPort?).toText := by
  have hauthority : config.authority.toList =
      host.text ++ (top config.tls.scheme.toList host config.writtenPort?).portText := by
    rw [authority, portText, writtenPort?, h.host_eq]
    split_ifs
    · simp [top]
    · simp [top, decimal]
  rw [toText, chars_top h.named, ← hauthority, ← String.toList_inj]
  simp

/-- The root is a server that is written in the same way. -/
theorem Serves.exists_rootUrl (h : config.Serves host) :
    ∃ again, parse (top config.tls.scheme.toList host config.writtenPort?).toText =
        .ok (top config.tls.scheme.toList again config.writtenPort?) ∧
      config.rootUrl = top config.tls.scheme.toList again config.writtenPort? ∧
      again.text = host.text ∧ again.isNamed = true := by
  obtain ⟨kind, text, haccepted, hkind⟩ := h.accepted
  have hordinary : kind = .ordinary → Scheme.kind config.tls.scheme.toList = .ordinary := by
    intro heq
    cases htls : config.tls with
    | none => exact absurd htls (hkind heq)
    | explicit | implicit => decide
  obtain ⟨again, hparse, htext, hagain⟩ := exists_parse_top (scheme_eq config.tls) haccepted h.named
    hordinary (isWritten_writtenPort? h.port_lt)
  refine ⟨again, hparse, ?_, htext, hagain⟩
  rw [rootUrl, h.rootPath, h.toText_top, hparse]

theorem Serves.key_eq (h : config.Serves host) :
    config.root.key = (top config.tls.scheme.toList host config.writtenPort?).toText := by
  obtain ⟨again, -, hroot, htext, hagain⟩ := h.exists_rootUrl
  have hkey : config.root.key =
      (top config.tls.scheme.toList again config.writtenPort?).toText := by
    rw [RootIdentity.key, root, hroot]
    rfl
  rw [hkey, toText, toText, chars_top_congr h.named hagain htext]

/-- A key says everything but which kind of TLS it is. -/
theorem Serves.key_inj {other : Host} (ha : a.Serves host) (hb : b.Serves other)
    (hkey : a.root.key = b.root.key) :
    a.host = b.host ∧ a.tls.scheme = b.tls.scheme ∧ a.writtenPort? = b.writtenPort? := by
  obtain ⟨againA, hparseA, -, htextA, -⟩ := ha.exists_rootUrl
  obtain ⟨againB, hparseB, -, htextB, -⟩ := hb.exists_rootUrl
  -- The keys are one text, and a text is read as one URL.
  rw [← ha.key_eq, hkey, hb.key_eq, hparseB] at hparseA
  have hsame := Except.ok.inj hparseA
  simp only [top, Url.mk.injEq] at hsame
  refine ⟨?_, String.toList_inj.mp hsame.1.symm, ?_⟩
  · rw [ha.host_eq, hb.host_eq, ← htextA, ← htextB, hsame.2.2.2.1]
  · exact hsame.2.2.2.2.1.symm

/-! ### Settings of a URL -/

variable {url : Url} {passive : Bool}

theorem ofUrl_ok (h : ofUrl url passive = .ok config) :
    url.host.isNamed = true ∧ config =
      { host := String.ofList url.host.text
        port := url.port.getD (tlsOf url).defaultPort
        user := if url.username.isEmpty then "anonymous"
          else percentDecode (String.ofList url.username)
        password := (url.password.map fun text ↦ percentDecode (String.ofList text)).getD
          "anonymous@"
        rootPath := "/", tls := tlsOf url, passive } := by
  unfold ofUrl hostText? at h
  by_cases hnamed : url.host.isNamed = true
  · rw [if_pos hnamed] at h
    exact ⟨hnamed, (Except.ok.inj h).symm⟩
  · rw [if_neg hnamed] at h
    cases h

theorem defaultPort_lt (tls : FtpTls) : tls.defaultPort < UInt16.size := by
  cases tls <;> decide

theorem scheme_of_tlsOf (hscheme : url.scheme = "ftp".toList ∨ url.scheme = "ftps".toList)
    (htls : tlsOf url = .none) : url.scheme = "ftp".toList := by
  refine hscheme.resolve_right fun hsecure ↦ ?_
  unfold tlsOf at htls
  split_ifs at htls

theorem serves_of_ofUrl (hurl : Arises url)
    (hscheme : url.scheme = "ftp".toList ∨ url.scheme = "ftps".toList)
    (h : ofUrl url passive = .ok config) : config.Serves url.host := by
  obtain ⟨hnamed, rfl⟩ := ofUrl_ok h
  have hfile : url.kind ≠ .file := by
    rw [kind]
    rcases hscheme with heq | heq <;> rw [heq] <;> decide
  have hserver := hurl.hasServer hfile
  refine ⟨rfl, rfl, hnamed, ?_, ?_⟩
  · cases hport : url.port with
    | none => exact defaultPort_lt (tlsOf url)
    | some n => exact (hserver.port n hport).1
  · rcases hserver.host with ⟨text, htext⟩ | ⟨-, habsent⟩
    · refine ⟨url.kind, text, htext, fun hordinary htls ↦ ?_⟩
      rw [kind, scheme_of_tlsOf hscheme htls] at hordinary
      exact absurd hordinary (by decide)
    · rw [habsent] at hnamed
      cases hnamed

/-- What a key is opened as. -/
def reopened (config : FtpConfig) (passive : Bool) : FtpConfig :=
  { host := config.host, port := config.writtenPort?.getD 21, user := "anonymous"
    password := "anonymous@", rootPath := "/"
    tls := if config.tls = .none then .none else .explicit, passive }

theorem Serves.cutAt?_key (h : config.Serves host) :
    ∃ rest, cutAt? "://".toList config.root.key.toList = some (config.tls.scheme.toList, rest) := by
  have hchars : config.root.key.toList =
      (top config.tls.scheme.toList host config.writtenPort?).chars := by
    rw [h.key_eq, toText, String.toList_ofList]
  rw [hchars, chars_top h.named]
  rcases scheme_eq config.tls with hscheme | hscheme <;> rw [hscheme] <;> exact ⟨_, rfl⟩

/-- A key is opened without a login, and with no more than the common kind of TLS. -/
theorem Serves.resolve_key (h : config.Serves host) (passive : Bool) (workingDir : String) :
    Location.resolve passive workingDir config.root.key =
      .ok ⟨.ftp (config.reopened passive), "/"⟩ := by
  obtain ⟨again, hparse, -, htext, hagain⟩ := h.exists_rootUrl
  obtain ⟨rest, hcut⟩ := h.cutAt?_key
  rw [← h.key_eq] at hparse
  have hconfig : ofUrl (top config.tls.scheme.toList again config.writtenPort?) passive =
      .ok (config.reopened passive) := by
    have hhost : String.ofList again.text = config.host := by rw [h.host_eq, htext]
    simp only [ofUrl, hostText?, top, hagain, if_true, hhost, reopened]
    cases config.tls <;> rfl
  have hlocation : Location.ofUrl passive workingDir config.tls.scheme
      (top config.tls.scheme.toList again config.writtenPort?) =
      .ok ⟨.ftp (config.reopened passive), "/"⟩ := by
    have hpath : Path.normalize "/" = "/" := by decide
    unfold Location.ofUrl
    rw [hconfig]
    cases config.tls <;> exact congrArg (fun path ↦ Except.ok (Location.mk _ path)) hpath
  have hlowered : lowered (String.ofList config.tls.scheme.toList) = config.tls.scheme := by
    cases config.tls <;> decide
  unfold Location.resolve
  simp only [hcut, hparse, hlowered, hlocation]

theorem Serves.reopened (h : config.Serves host) (passive : Bool) :
    (config.reopened passive).Serves host := by
  obtain ⟨kind, text, haccepted, hkind⟩ := h.accepted
  refine ⟨rfl, h.host_eq, h.named, ?_, kind, text, haccepted, fun hordinary htls ↦ ?_⟩
  · cases hport : config.writtenPort? with
    | none =>
      rw [FtpConfig.reopened, hport]
      exact defaultPort_lt .none
    | some n =>
      simp only [FtpConfig.reopened, hport, Option.getD_some]
      exact (isWritten_writtenPort? h.port_lt n hport).1
  · have hsecure := hkind hordinary
    simp [FtpConfig.reopened, hsecure] at htls

theorem reopened_eq (htls : config.tls ≠ .implicit) (passive : Bool) :
    (config.reopened passive).port = config.port ∧ (config.reopened passive).tls = config.tls := by
  rw [port_eq config]
  cases h : config.tls with
  | none | explicit => simp [FtpConfig.reopened, h, FtpTls.defaultPort]
  | implicit => exact absurd h htls

theorem Serves.key_reopened (h : config.Serves host) (htls : config.tls ≠ .implicit)
    (passive : Bool) : (config.reopened passive).root.key = config.root.key := by
  obtain ⟨hport, hsame⟩ := reopened_eq htls passive
  have hwritten : (config.reopened passive).writtenPort? = config.writtenPort? := by
    rw [writtenPort?, hport, hsame, ← writtenPort?]
  rw [(h.reopened passive).key_eq, h.key_eq, hsame, hwritten]

/-- Kinds of TLS with one scheme, if they are both the implicit one or neither is. -/
theorem tls_eq_of_scheme_eq {tls other : FtpTls} (hscheme : tls.scheme = other.scheme)
    (himplicit : tls = .implicit ↔ other = .implicit) : tls = other := by
  cases tls <;> cases other <;> simp_all [FtpTls.scheme]

/-- Endpoints with the same key have the same host, and are the same exactly if both or neither of
them use implicit TLS. A key is opened as the endpoint it was made for unless that one does. -/
theorem endpoint_of_root_key {urlA urlB : Url} {passiveA passiveB : Bool} (passive : Bool)
    (workingDir : String) (hurlA : Arises urlA) (hurlB : Arises urlB)
    (hschemeA : urlA.scheme = "ftp".toList ∨ urlA.scheme = "ftps".toList)
    (hschemeB : urlB.scheme = "ftp".toList ∨ urlB.scheme = "ftps".toList)
    (ha : ofUrl urlA passiveA = .ok a) (hb : ofUrl urlB passiveB = .ok b) :
    (a.root.key = b.root.key → a.host = b.host ∧
      (a.port = b.port ∧ a.tls = b.tls ↔ (a.tls = .implicit ↔ b.tls = .implicit))) ∧
    ∃ config path, Location.resolve passive workingDir a.root.key = .ok ⟨.ftp config, path⟩ ∧
      config.host = a.host ∧ (config.port = a.port ∧ config.tls = a.tls ∧
        config.root.key = a.root.key ↔ a.tls ≠ .implicit) := by
  have hservesA := serves_of_ofUrl hurlA hschemeA ha
  have hservesB := serves_of_ofUrl hurlB hschemeB hb
  constructor
  · intro hkey
    obtain ⟨hhost, hscheme, hport⟩ := hservesA.key_inj hservesB hkey
    refine ⟨hhost, fun ⟨_, htls⟩ ↦ by rw [htls], fun himplicit ↦ ?_⟩
    have htls := tls_eq_of_scheme_eq hscheme himplicit
    exact ⟨by rw [port_eq a, port_eq b, hport, htls], htls⟩
  · refine ⟨a.reopened passive, "/", hservesA.resolve_key passive workingDir, rfl, ?_,
      fun htls ↦ ?_⟩
    · rintro ⟨-, htls, -⟩ himplicit
      simp [reopened, himplicit] at htls
    · obtain ⟨hport, hsame⟩ := reopened_eq htls passive
      exact ⟨hport, hsame, hservesA.key_reopened htls passive⟩

/-- A secured server without a port of its own and the same server on that port. -/
theorem endpoint_of_root_key_secured :
    ∃ urlA urlB a b, parse "ftps://example.com/" = .ok urlA ∧
      parse "ftps://u:p@example.com:21/pub" = .ok urlB ∧
      ofUrl urlA true = .ok a ∧ ofUrl urlB true = .ok b ∧
      a.root.key = b.root.key ∧ a.host = b.host ∧ a.port = b.port ∧ a.tls = b.tls := by
  let urlA : Url := top "ftps".toList (.domain "example.com".toList) none
  let urlB : Url :=
    { top "ftps".toList (.domain "example.com".toList) (some 21) with
      username := ['u'], password := some ['p'], path := .segments ["pub".toList] }
  let a : FtpConfig :=
    { host := "example.com", port := 21, user := "anonymous", password := "anonymous@"
      rootPath := "/", tls := .explicit, passive := true }
  let b : FtpConfig := { a with user := "u", password := "p" }
  have hparseA : parse "ftps://example.com/" = .ok urlA := eq_ok_of_toOption (by decide +kernel)
  have hparseB : parse "ftps://u:p@example.com:21/pub" = .ok urlB :=
    eq_ok_of_toOption (by decide +kernel)
  have ha : ofUrl urlA true = .ok a := eq_ok_of_toOption (by decide +kernel)
  have hb : ofUrl urlB true = .ok b := eq_ok_of_toOption (by decide +kernel)
  have hkey : a.root.key = b.root.key := by decide +kernel
  obtain ⟨hhost, hrest⟩ := (endpoint_of_root_key true "/" (.parsed hparseA) (.parsed hparseB)
    (Or.inr rfl) (Or.inr rfl) ha hb).1 hkey
  obtain ⟨hport, htls⟩ := hrest.mpr (by decide)
  exact ⟨urlA, urlB, a, b, hparseA, hparseB, ha, hb, hkey, hhost, hport, htls⟩

/-- Both kinds of TLS, each on its own port, have one key, which is opened as one of them. -/
theorem root_key_shared :
    ∃ urlA urlB a b config path, parse "ftps://example.com/?tls=implicit" = .ok urlA ∧
      parse "ftps://example.com/" = .ok urlB ∧ ofUrl urlA true = .ok a ∧ ofUrl urlB true = .ok b ∧
      a.root.key = b.root.key ∧ ¬(a.port = b.port ∧ a.tls = b.tls) ∧
      Location.resolve true "/" a.root.key = .ok ⟨.ftp config, path⟩ ∧
      ¬(config.port = a.port ∧ config.tls = a.tls) := by
  let urlB : Url := top "ftps".toList (.domain "example.com".toList) none
  let a : FtpConfig :=
    { host := "example.com", port := 990, user := "anonymous", password := "anonymous@"
      rootPath := "/", tls := .implicit, passive := true }
  let b : FtpConfig := { a with port := 21, tls := .explicit }
  exact ⟨{ urlB with query := some "tls=implicit".toList }, urlB, a, b, b, "/",
    eq_ok_of_toOption (by decide +kernel), eq_ok_of_toOption (by decide +kernel),
    eq_ok_of_toOption (by decide +kernel), eq_ok_of_toOption (by decide +kernel),
    by decide +kernel, by decide, eq_ok_of_toOption (by decide +kernel), by decide⟩

end FtpConfig

end DirectoryBrowser

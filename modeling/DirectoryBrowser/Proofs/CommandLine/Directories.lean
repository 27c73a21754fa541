import DirectoryBrowser.CommandLine.Run
import DirectoryBrowser.Proofs.CommandLine.Listing
import DirectoryBrowser.Proofs.Containment
import DirectoryBrowser.Proofs.Ftp.Endpoints
import DirectoryBrowser.Proofs.Operation.Deleting
import DirectoryBrowser.Proofs.Operation.Walk

/-!
# The directory that a command works in

All commands read a location in the same way, but only a listing goes through a
session, which expands a tilde. A removal and the making of a tree take the
location as it has been read. So they work in the directory that is listed, unless
the location begins at the home directory: then a tilde is the name of a directory
for them, below the working directory of the program.
-/

namespace DirectoryBrowser

namespace Path

/-- The path is a tilde, or goes on after one. -/
def IsHomely (path : String) : Prop := path = "~" ∨ "~/".toList <+: path.toList

instance (path : String) : Decidable (IsHomely path) :=
  inferInstanceAs (Decidable (path = "~" ∨ "~/".toList <+: path.toList))

variable {path home : String}

theorem expandHome_of_not_isHomely (h : ¬ IsHomely path) (home : Option String) :
    expandHome path home = path := by
  unfold expandHome
  cases home with
  | none => rfl
  | some home =>
    dsimp only
    split
    case h_1 htilde => exact absurd (Or.inl (String.toList_inj.mp htilde)) h
    case h_2 rest htilde => exact absurd (Or.inr ⟨rest, htilde.symm⟩) h
    case h_3 => rfl

theorem isAbsolute_expandHome (h : IsHomely path) (hhome : IsAbsolute home) :
    IsAbsolute (expandHome path (some home)) := by
  unfold expandHome
  rcases h with rfl | ⟨rest, hrest⟩
  · exact hhome
  · rw [← hrest]
    exact hhome.join _

theorem IsHomely.not_isAbsolute (h : IsHomely path) : ¬ IsAbsolute path := by
  unfold IsAbsolute
  rcases h with rfl | ⟨rest, hrest⟩
  · decide
  · rw [← hrest]
    nofun

end Path

namespace Location

variable {passive : Bool} {workingDir text : String} {place : Location}

/-- Begins at the home directory of the user. -/
def OpensHome (place : Location) : Prop := place.storage = .disk ∧ Path.IsHomely place.path

instance (place : Location) : Decidable place.OpensHome :=
  inferInstanceAs (Decidable (place.storage = .disk ∧ Path.IsHomely place.path))

theorem ofUrl_ok {scheme : String} {url : Url}
    (h : ofUrl passive workingDir scheme url = .ok place) :
    (∃ path, place = ofDiskPath workingDir path) ∨
    (∃ config, FtpConfig.ofUrl url passive = .ok config ∧
      place = ⟨.ftp config, Path.normalize url.pathText⟩) ∨
    ∃ index : HttpIndex, place = ⟨.http index, index.root.path⟩ := by
  unfold ofUrl at h
  split_ifs at h
  · split at h
    case h_1 path _ => exact Or.inl ⟨path, (Except.ok.inj h).symm⟩
    case h_2 => cases h
  · cases hconfig : FtpConfig.ofUrl url passive with
    | error reason =>
      rw [hconfig] at h
      cases h
    | ok config =>
      rw [hconfig] at h
      exact Or.inr (Or.inl ⟨config, rfl, (Except.ok.inj h).symm⟩)
  · exact Or.inr (Or.inr ⟨HttpIndex.ofUrl url, (Except.ok.inj h).symm⟩)

/-- What a text can lead to: a path of the disk, one of an FTP server, or the top of an index. -/
theorem resolve_ok (h : resolve passive workingDir text = .ok place) :
    (∃ path, place = ofDiskPath workingDir path) ∨
    (∃ url config, Url.parse text = .ok url ∧ FtpConfig.ofUrl url passive = .ok config ∧
      place = ⟨.ftp config, Path.normalize url.pathText⟩) ∨
    ∃ index : HttpIndex, place = ⟨.http index, index.root.path⟩ := by
  unfold resolve at h
  split at h
  case h_1 => exact Or.inl ⟨text, (Except.ok.inj h).symm⟩
  case h_2 scheme after hcut =>
    cases hparse : Url.parse text with
    | error reason =>
      rw [hparse] at h
      cases h
    | ok url =>
      rw [hparse] at h
      dsimp only at h
      split at h
      case h_1 found hfound =>
        obtain rfl := Except.ok.inj h
        rcases ofUrl_ok hfound with hdisk | ⟨config, hconfig, hplace⟩ | hindex
        · exact Or.inl hdisk
        · exact Or.inr (Or.inl ⟨url, config, rfl, hconfig, hplace⟩)
        · exact Or.inr (Or.inr hindex)
      case h_2 => cases h

theorem normalize_ofDiskPath (workingDir path : String) :
    Path.normalize (ofDiskPath workingDir path).path = (ofDiskPath workingDir path).path := by
  unfold ofDiskPath Path.normalize
  rw [String.toList_ofList, Path.normalizeChars_congr (Path.dropTrailing_normalizeChars _)]

/-- The path of a URL that names a host is absolute, or there is none. -/
theorem isAbsolute_pathText {url : Url} {config : FtpConfig} (hparse : Url.parse text = .ok url)
    (hconfig : FtpConfig.ofUrl url passive = .ok config) :
    Path.IsAbsolute (Path.normalize url.pathText) := by
  obtain ⟨names, hnames⟩ := Url.exists_segments_of_parse hparse (FtpConfig.ofUrl_ok hconfig).1
  unfold Url.pathText
  rw [hnames]
  cases names with
  | nil => decide
  | cons name names =>
    apply Path.IsAbsolute.normalize
    unfold Path.IsAbsolute
    rw [String.toList_ofList]
    rfl

/-- Expansion and normal form leave alone what has been resolved, unless a tilde is expanded. -/
theorem target_eq_of_resolve (h : resolve passive workingDir text = .ok place) (machine : Machine)
    (id : Nat) (hhome : place.OpensHome → machine.home = none) :
    Session.target (machine.backend id place.storage) place.path = place.path := by
  rcases resolve_ok h with ⟨path, rfl⟩ | ⟨url, config, hparse, hconfig, rfl⟩ | ⟨index, rfl⟩
  · have hsame : Path.expandHome (ofDiskPath workingDir path).path machine.home =
        (ofDiskPath workingDir path).path := by
      by_cases hhomely : Path.IsHomely (ofDiskPath workingDir path).path
      · rw [hhome ⟨rfl, hhomely⟩]
        rfl
      · exact Path.expandHome_of_not_isHomely hhomely machine.home
    exact (congrArg Path.normalize hsame).trans (normalize_ofDiskPath workingDir path)
  · rw [Session.target_of_isAbsolute _ (isAbsolute_pathText hparse hconfig),
      Path.normalize_normalize]
  · exact Path.normalize_normalize _

/-- A tilde that is expanded does not stay what it was. -/
theorem target_ne_of_opensHome (hplace : place.OpensHome) {machine : Machine} {home : String}
    (hhome : machine.home = some home) (habsolute : Path.IsAbsolute home) (id : Nat) :
    Session.target (machine.backend id place.storage) place.path ≠ place.path := by
  obtain ⟨hdisk, hhomely⟩ := hplace
  have hbackend : (machine.backend id place.storage).home = some home := by
    rw [hdisk]
    exact hhome
  have hexpanded := (Path.isAbsolute_expandHome hhomely habsolute).normalize
  rw [← hbackend] at hexpanded
  intro heq
  exact hhomely.not_isAbsolute (heq ▸ hexpanded)

end Location

namespace CommandLine

variable {machine : Machine} {settings : Settings} {location : String} {place : Location}

/-! ### Operations on a storage -/

/-- Only a listing can end in a panic. -/
theorem call_ne_panicked (machine : Machine) (storage : Storage) {call : BackendCall}
    (hcall : ∀ path, call ≠ .list path) (message : String) :
    (machine.call storage call).1 ≠ .panicked message := by
  have happlied (disk : Disk) (path : String) (result : Except SystemError Disk) :
      (disk.applied path result).1 ≠ .panicked message := by
    cases result <;> nofun
  have hunit (result : Except BackendError Unit) : BackendReply.ofUnit result ≠ .panicked message := by
    cases result <;> nofun
  cases storage with
  | disk =>
    cases call with
    | list path => exact absurd rfl (hcall path)
    | createDirectory path => exact happlied _ _ _
    | createFile path => exact happlied _ _ _
    | delete path => exact happlied _ _ _
    | _ => nofun
  | ftp config =>
    simp only [Machine.call]
    cases call with
    | list path => exact absurd rfl (hcall path)
    | createDirectory path =>
      simp only [FtpClient.call]
      exact hunit _
    | createFile path =>
      simp only [FtpClient.call]
      exact hunit _
    | delete path =>
      simp only [FtpClient.call]
      exact hunit _
    | _ => nofun
  | http index =>
    cases call with
    | list path => exact absurd rfl (hcall path)
    | _ => nofun

theorem workplace_act_ne_none (storage : Storage) (callFor : String → BackendCall)
    (hcall : ∀ item path, callFor item ≠ .list path) (path : String) (machine : Machine) :
    ((workplace storage callFor).act path machine).1 ≠ none := by
  have hreply := call_ne_panicked machine storage (hcall path)
  unfold workplace resultOf
  dsimp only
  split
  case h_1 => nofun
  case h_2 message hpanicked => exact absurd hpanicked (hreply message)
  case h_3 => nofun

/-- Nobody cancels an operation of the command line. -/
theorem workplace_isToken (storage : Storage) (callFor : String → BackendCall) :
    (workplace storage callFor).IsToken fun _ ↦ False where
  poll_eq_true_iff _ := ⟨nofun, nofun⟩
  poll _ := id
  act _ _ := id

/-! ### Where the calls of an operation go -/

def removalCalls (machine : Machine) (place : Location) (names : List String) :
    List (WorkCall Machine) :=
  Delete.callsOf (workplace place.storage .delete) machine (removalPaths place names)

def treeCalls (machine : Machine) (place : Location) (layout : TreeLayout) :
    List (WorkCall Machine) :=
  Generate.callsOf (workplace place.storage .createDirectory) machine place.path layout

/-- A removal goes through its names below the location, and begins with the first of them. -/
theorem removalCalls_below (machine : Machine) (place : Location) (names : List String) :
    (removalCalls machine place names).map WorkCall.path <+: names.map (Path.join place.path) ∧
      (names ≠ [] → removalCalls machine place names ≠ []) := by
  obtain ⟨ending, hcourse⟩ := Delete.callsOf_course
    (workplace_act_ne_none place.storage .delete fun _ _ ↦ nofun) machine (removalPaths place names)
  refine ⟨?_, fun hnames hnone ↦ ?_⟩
  · unfold removalCalls
    rw [hcourse.asked]
    exact List.take_prefix _ _
  · unfold removalCalls at hnone
    rw [hnone] at hcourse
    generalize hpaths : removalPaths place names = paths at hcourse
    cases hcourse with
    | finished => exact hnames (List.map_eq_nil_iff.mp hpaths)
    | cancelled hpoll => cases hpoll

/-- Every directory of a tree is made for a node of the layout, below the location. -/
theorem treeCalls_below (machine : Machine) (place : Location) (layout : TreeLayout) :
    ∃ nodes : List Node, nodes.Sublist layout.breadthFirst ∧
      (treeCalls machine place layout).map WorkCall.path =
        nodes.map (layout.pathOf place.path) := by
  cases hvalid : layout.validate with
  | error error =>
    refine ⟨[], List.nil_sublist _, ?_⟩
    unfold treeCalls Generate.callsOf Generate.run Generate.runWith
    rw [hvalid]
    rfl
  | ok _ =>
    obtain ⟨fails, nodes, calls, hwalked⟩ := Generate.run_walked
      (workplace_isToken place.storage .createDirectory)
      (workplace_act_ne_none place.storage .createDirectory fun _ _ ↦ nofun) hvalid machine place.path
    have hcalls : treeCalls machine place layout = calls := hwalked.recorded
    refine ⟨nodes, hwalked.inOrder.sublist.trans List.filter_sublist, ?_⟩
    have hmade := congrArg (List.map Prod.fst) hwalked.made
    rw [List.map_map, List.map_map] at hmade
    rw [hcalls]
    exact hmade

/-! ### One location, one directory -/

/-- A location that can be read is the directory below which entries are removed and a tree is made.
It is the one that is listed too, unless it begins at the home directory; then it never is, where
the home is an absolute path. -/
theorem commands_share_directory
    (hplace : locate settings machine.workingDir location = .ok place) :
    ∃ listed,
      (∀ all, (run machine settings (.list (some location) all)).1 =
        Browse.report (Browse.listing machine settings place) all) ∧
      Browse.Lists machine place.storage listed (Browse.listing machine settings place) ∧
      (∀ names, run machine settings (.remove location names) = remove machine place names ∧
        (removalCalls machine place names).map WorkCall.path <+: names.map (Path.join place.path) ∧
        (names ≠ [] → removalCalls machine place names ≠ [])) ∧
      (∀ layout, run machine settings (.makeTree location layout) = makeTree machine place layout ∧
        ∃ nodes : List Node, nodes.Sublist layout.breadthFirst ∧
          (treeCalls machine place layout).map WorkCall.path =
            nodes.map (layout.pathOf place.path)) ∧
      ((place.OpensHome → machine.home = none) → listed = place.path) ∧
      (place.OpensHome → ∀ home, machine.home = some home → Path.IsAbsolute home →
        listed ≠ place.path) := by
  refine ⟨Session.target (machine.backend 0 place.storage) place.path, fun all ↦ ?_,
    Browse.listing_lists machine settings place,
    fun names ↦ ⟨?_, removalCalls_below machine place names⟩,
    fun layout ↦ ⟨?_, treeCalls_below machine place layout⟩,
    Location.target_eq_of_resolve hplace machine 0, ?_⟩
  · simp only [run, hplace, Browse.run_eq]
  · simp only [run, hplace]
  · simp only [run, hplace]
  · intro hhomely home hhome habsolute
    exact Location.target_ne_of_opensHome hhomely hhome habsolute 0

/-- A machine whose user has a home. -/
def furnished : Machine := ⟨Disk.empty, some "/home/u", none, none⟩

theorem commands_share_directory_plain :
    locate Settings.default furnished.workingDir "/srv/" = .ok ⟨.disk, "/srv"⟩ ∧
    Browse.Lists furnished .disk "/srv" (Browse.listing furnished .default ⟨.disk, "/srv"⟩) ∧
    (removalCalls furnished ⟨.disk, "/srv"⟩ ["a"]).map WorkCall.path <+: ["/srv/a"] := by
  have hplace : locate Settings.default furnished.workingDir "/srv/" = .ok ⟨.disk, "/srv"⟩ := by
    with_unfolding_all rfl
  obtain ⟨listed, -, hlists, hremoves, -, hsame, -⟩ := commands_share_directory hplace
  obtain rfl := hsame (by decide)
  exact ⟨hplace, hlists, (hremoves ["a"]).2.1⟩

/-- The home directory is listed, but a directory called `~` is what an entry is removed from. -/
theorem commands_differ_at_home :
    locate Settings.default furnished.workingDir "~" = .ok ⟨.disk, "~"⟩ ∧
    (run furnished .default (.list (some "~") false)).1 =
      Browse.report (Browse.listing furnished .default ⟨.disk, "~"⟩) false ∧
    Browse.Lists furnished .disk "/home/u" (Browse.listing furnished .default ⟨.disk, "~"⟩) ∧
    run furnished .default (.remove "~" ["a"]) = remove furnished ⟨.disk, "~"⟩ ["a"] ∧
    (removalCalls furnished ⟨.disk, "~"⟩ ["a"]).map WorkCall.path = ["~/a"] := by
  have hplace : locate Settings.default furnished.workingDir "~" = .ok ⟨.disk, "~"⟩ := by
    with_unfolding_all rfl
  refine ⟨hplace, ?_, Browse.listing_lists furnished .default ⟨.disk, "~"⟩, ?_, ?_⟩
  · simp only [run, hplace, Browse.run_eq]
  · simp only [run, hplace]
  · decide +kernel

end CommandLine

end DirectoryBrowser

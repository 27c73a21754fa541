import DirectoryBrowser.Proofs.Text.Lines
import DirectoryBrowser.Proofs.Text.Numerals
import DirectoryBrowser.Status.Porcelain

/-!
# Printouts of changes, summarised

A printout has a header, which names a branch and how far it is from its upstream,
and one line per change. Names and paths may look like other parts of a printout:
the divergence begins at the first bracket, which no name contains, its numbers are
found by their labels, and a path is not looked at.
-/

namespace DirectoryBrowser.Porcelain

open Text

/-! ### What is printed -/

/-- How far a branch is from its upstream, in commits that only one of the two has. -/
inductive Divergence where
  | unmentioned
  | gone
  | ahead (ours : UInt32)
  | behind (theirs : UInt32)
  | apart (ours theirs : UInt32)
  deriving DecidableEq, Repr

namespace Divergence

def text : Divergence → List Char
  | .unmentioned => []
  | .gone => " [gone]".toList
  | .ahead ours => " [ahead ".toList ++ (decimal ours.toNat ++ "]".toList)
  | .behind theirs => " [behind ".toList ++ (decimal theirs.toNat ++ "]".toList)
  | .apart ours theirs =>
    " [ahead ".toList ++ (decimal ours.toNat ++
      (", behind ".toList ++ (decimal theirs.toNat ++ "]".toList)))

def aheadCount : Divergence → Nat
  | .ahead ours | .apart ours _ => ours.toNat
  | _ => 0

def behindCount : Divergence → Nat
  | .behind theirs | .apart _ theirs => theirs.toNat
  | _ => 0

end Divergence

/-- A name that stays in its line and cannot be taken for a divergence. -/
def IsRefName (name : List Char) : Prop := '[' ∉ name ∧ '\n' ∉ name

instance (name : List Char) : Decidable (IsRefName name) :=
  inferInstanceAs (Decidable ('[' ∉ name ∧ '\n' ∉ name))

structure Header where
  branch : List Char
  upstream : Option (List Char)
  divergence : Divergence
  isName_branch : IsRefName branch
  isName_upstream : ∀ name ∈ upstream, IsRefName name

namespace Header

def names (header : Header) : List Char :=
  header.branch ++ header.upstream.elim [] ("...".toList ++ ·)

def text (header : Header) : List Char :=
  '#' :: '#' :: ' ' :: header.names ++ header.divergence.text

end Header

/-- States of a path in the index or in the worktree. -/
def codes : List Char := " MTADRCU?!".toList

structure Change where
  index : Char
  worktree : Char
  path : List Char
  index_mem : index ∈ codes
  worktree_mem : worktree ∈ codes
  feed_notMem : '\n' ∉ path

def Change.text (change : Change) : List Char :=
  change.index :: change.worktree :: ' ' :: change.path

/-- Every line with its end; only a printout that is closed has one at the end of the last line. -/
def printout (header : Header) (headerEnd : LineEnd) (changes : List (Change × LineEnd))
    (closed : Bool) : String :=
  String.ofList (joined
    ((header.text, headerEnd) :: changes.map fun row ↦ (row.1.text, row.2)) closed)

/-! ### Numbers after their labels -/

section Labels

variable {first : Char} {label before rest : List Char}

theorem countAfter_of_notMem (h : first ∉ rest) : countAfter (first :: label) rest = 0 := by
  have hnone : cutAt? (first :: label) (rest ++ []) = none := cutAt?_append h []
  rw [List.append_nil] at hnone
  unfold countAfter
  rw [hnone]

theorem takeWhile_isDigit_decimal (n : Nat) (hrest : rest.head?.any isDigit = false) :
    (decimal n ++ rest).takeWhile isDigit = decimal n := by
  have hdigits : ∀ c ∈ decimal n, isDigit c = true :=
    (isNumeral_decimal n).forall_mem (by decide)
  have hstop : rest.takeWhile isDigit = [] := by
    cases rest with
    | nil => rfl
    | cons c rest => exact List.takeWhile_cons_of_neg (ne_true_of_eq_false hrest)
  rw [List.takeWhile_append_of_pos hdigits, hstop, List.append_nil]

theorem countAfter_append (hbefore : first ∉ before) (count : UInt32)
    (hrest : rest.head?.any isDigit = false) :
    countAfter (first :: label) (before ++ (first :: label ++ (decimal count.toNat ++ rest))) =
      count.toNat := by
  have hcut : cutAt? (first :: label) (first :: label ++ (decimal count.toNat ++ rest)) =
      some ([], decimal count.toNat ++ rest) := by
    rw [List.cons_append, cutAt?, ← List.cons_append, Path.dropStart?_eq_some_iff.mpr rfl]
  have hread : numeral? 10 UInt32.size (decimal count.toNat) = some count.toNat :=
    (isNumeral_decimal _).numeral?_eq count.toNat_lt_size
  unfold countAfter
  rw [cutAt?_append hbefore, hcut, Option.map_some]
  dsimp only
  rw [takeWhile_isDigit_decimal _ hrest, hread, Option.getD_some]

end Labels

/-! ### Headers -/

variable {names read : List Char}

theorem le_of_all {cs : List Char} (h : cs.all (fun c ↦ 0x20 ≤ c.toNat) = true) :
    ∀ c ∈ cs, 0x20 ≤ c.toNat :=
  fun c hc ↦ of_decide_eq_true (List.all_eq_true.mp h c hc)

/-- No control character stands in a divergence, and so no line end. -/
theorem Divergence.le_of_mem_text (divergence : Divergence) :
    ∀ c ∈ divergence.text, 0x20 ≤ c.toNat := by
  have hdecimal (count : UInt32) : ∀ c ∈ decimal count.toNat, 0x20 ≤ c.toNat :=
    (isNumeral_decimal _).forall_mem (by decide)
  have hclosed (count : UInt32) : ∀ c ∈ decimal count.toNat ++ "]".toList, 0x20 ≤ c.toNat :=
    List.forall_mem_append.mpr ⟨hdecimal count, le_of_all (by decide)⟩
  cases divergence with
  | unmentioned => exact le_of_all (by decide)
  | gone => exact le_of_all (by decide)
  | ahead ours => exact List.forall_mem_append.mpr ⟨le_of_all (by decide), hclosed ours⟩
  | behind theirs => exact List.forall_mem_append.mpr ⟨le_of_all (by decide), hclosed theirs⟩
  | apart ours theirs =>
    have hbehind : ∀ c ∈ ", behind ".toList ++ (decimal theirs.toNat ++ "]".toList),
        0x20 ≤ c.toNat := List.forall_mem_append.mpr ⟨le_of_all (by decide), hclosed theirs⟩
    exact List.forall_mem_append.mpr
      ⟨le_of_all (by decide), List.forall_mem_append.mpr ⟨hdecimal ours, hbehind⟩⟩

theorem dropWhile_names (hnames : '[' ∉ names) (rest : List Char) :
    (names ++ rest).dropWhile (· != '[') = rest.dropWhile (· != '[') :=
  List.dropWhile_append_of_pos fun _ hc ↦ bne_iff_ne.mpr (ne_of_mem_of_not_mem hc hnames)

/-- The numbers are looked for behind the first bracket. -/
theorem readHeader_bracket (hnames : '[' ∉ names) (info : List Char) {ours theirs : Nat}
    (hours : countAfter "ahead ".toList ('[' :: info) = ours)
    (htheirs : countAfter "behind ".toList ('[' :: info) = theirs) :
    readHeader StatusRecord.clean (names ++ ' ' :: '[' :: info) =
      { StatusRecord.clean with ahead := ours, behind := theirs } := by
  unfold readHeader
  rw [dropWhile_names hnames, ← hours, ← htheirs]
  rfl

theorem readHeader_text (hnames : '[' ∉ names) (divergence : Divergence) :
    readHeader StatusRecord.clean (names ++ divergence.text) =
      { StatusRecord.clean with
        ahead := divergence.aheadCount
        behind := divergence.behindCount } := by
  have ha (count : UInt32) : 'a' ∉ decimal count.toNat := (isNumeral_decimal _).notMem (by decide)
  have hb (count : UInt32) : 'b' ∉ decimal count.toNat := (isNumeral_decimal _).notMem (by decide)
  cases divergence with
  | unmentioned =>
    unfold readHeader
    rw [dropWhile_names hnames]
    rfl
  | gone => exact readHeader_bracket hnames "gone]".toList rfl rfl
  | ahead ours =>
    have hours : countAfter "ahead ".toList
        (['['] ++ ("ahead ".toList ++ (decimal ours.toNat ++ "]".toList))) = ours.toNat :=
      countAfter_append (by decide) ours rfl
    have htheirs : countAfter "behind ".toList
        (['['] ++ ("ahead ".toList ++ (decimal ours.toNat ++ "]".toList))) = 0 :=
      countAfter_of_notMem (List.not_mem_append (by decide)
        (List.not_mem_append (by decide) (List.not_mem_append (hb ours) (by decide))))
    exact readHeader_bracket hnames _ hours htheirs
  | behind theirs =>
    have hours : countAfter "ahead ".toList
        (['['] ++ ("behind ".toList ++ (decimal theirs.toNat ++ "]".toList))) = 0 :=
      countAfter_of_notMem (List.not_mem_append (by decide)
        (List.not_mem_append (by decide) (List.not_mem_append (ha theirs) (by decide))))
    have htheirs : countAfter "behind ".toList
        (['['] ++ ("behind ".toList ++ (decimal theirs.toNat ++ "]".toList))) = theirs.toNat :=
      countAfter_append (by decide) theirs rfl
    exact readHeader_bracket hnames _ hours htheirs
  | apart ours theirs =>
    have hours : countAfter "ahead ".toList (['['] ++ ("ahead ".toList ++ (decimal ours.toNat ++
        (", behind ".toList ++ (decimal theirs.toNat ++ "]".toList))))) = ours.toNat :=
      countAfter_append (by decide) ours rfl
    have htheirs : countAfter "behind ".toList (("[ahead ".toList ++ (decimal ours.toNat ++
        ", ".toList)) ++ ("behind ".toList ++ (decimal theirs.toNat ++ "]".toList))) =
          theirs.toNat :=
      countAfter_append (List.not_mem_append (by decide) (List.not_mem_append (hb ours) (by decide)))
        theirs rfl
    rw [List.append_assoc, List.append_assoc] at htheirs
    exact readHeader_bracket hnames _ hours htheirs

namespace Header

theorem notMem_names {c : Char} (header : Header) (hdots : c ∉ "...".toList)
    (h : ∀ name, IsRefName name → c ∉ name) : c ∉ header.names := by
  unfold names
  refine List.not_mem_append (h _ header.isName_branch) ?_
  cases hupstream : header.upstream with
  | none => exact List.not_mem_nil
  | some upstream =>
    exact List.not_mem_append hdots (h _ (header.isName_upstream upstream hupstream))

theorem feed_notMem (header : Header) : '\n' ∉ header.text := by
  have hnames : '\n' ∉ header.names := header.notMem_names (by decide) fun _ hname ↦ hname.2
  have hdivergence : '\n' ∉ header.divergence.text := fun hmem ↦
    absurd (header.divergence.le_of_mem_text _ hmem) (by decide)
  exact List.not_mem_append (List.not_mem_append (by decide : '\n' ∉ "## ".toList) hnames)
    hdivergence

/-- A carriage return that is lost belongs to a name. -/
theorem readLine_of_isRead (header : Header) (hread : IsRead header.text read) :
    readLine StatusRecord.clean read =
      { StatusRecord.clean with
        ahead := header.divergence.aheadCount
        behind := header.divergence.behindCount } := by
  have hreturn : '\r' ∉ header.divergence.text.getLast? := fun hmem ↦
    absurd (header.divergence.le_of_mem_text _ (List.mem_of_getLast? hmem)) (by decide)
  have hbracket : '[' ∉ ' ' :: header.names :=
    List.not_mem_cons_of_ne_of_not_mem (by decide)
      (header.notMem_names (by decide) fun _ hname ↦ hname.1)
  obtain ⟨_, rfl, hbehind⟩ := hread.tail (List.cons_ne_nil _ _)
  obtain ⟨_, rfl, hnames⟩ := hbehind.tail (List.cons_ne_nil _ _)
  have hnames : IsRead ((' ' :: header.names) ++ header.divergence.text) _ := hnames
  obtain ⟨front, hfront, rfl⟩ := hnames.exists_append hreturn
  exact readHeader_text (fun hmem ↦ hbracket (hfront.subset hmem)) header.divergence

end Header

/-! ### Changes -/

theorem isChange_iff {column : Char} : isChange column = true ↔ column ≠ ' ' ∧ column ≠ '?' := by
  rw [isChange, Bool.and_eq_true, bne_iff_ne, bne_iff_ne]

namespace Change

theorem feed_notMem_text (change : Change) : '\n' ∉ change.text := by
  have hcode {c : Char} (hc : c ∈ codes) : '\n' ≠ c := by
    rintro rfl
    exact absurd hc (by decide)
  refine List.not_mem_cons_of_ne_of_not_mem (hcode change.index_mem) ?_
  refine List.not_mem_cons_of_ne_of_not_mem (hcode change.worktree_mem) ?_
  exact List.not_mem_cons_of_ne_of_not_mem (by decide) change.feed_notMem

/-- Behind the two columns nothing matters. -/
theorem readLine_of_isRead (change : Change) (hread : IsRead change.text read)
    (record : StatusRecord) :
    readLine record read = readChange record change.index change.worktree := by
  have hindex : change.index ≠ '#' := by
    intro hsign
    exact absurd (hsign ▸ change.index_mem) (by decide)
  obtain ⟨_, rfl, hbehind⟩ := hread.tail (List.cons_ne_nil _ _)
  obtain ⟨_, rfl, -⟩ := hbehind.tail (List.cons_ne_nil _ _)
  rw [readLine]
  exact fun hsign ↦ absurd hsign hindex

end Change

theorem foldl_readLine {changes : List Change} {reads : List (List Char)}
    (hreads : List.Forall₂ (fun change read ↦ IsRead change.text read) changes reads)
    (record : StatusRecord) :
    reads.foldl readLine record =
      changes.foldl (fun record change ↦ readChange record change.index change.worktree) record := by
  induction hreads generalizing record with
  | nil => rfl
  | cons hread _ ih => rw [List.foldl_cons, List.foldl_cons, Change.readLine_of_isRead _ hread, ih]

/-- Changes are counted, and each mark tells whether one of them has it. -/
theorem foldl_readChange (changes : List Change) (record : StatusRecord) :
    changes.foldl (fun record change ↦ readChange record change.index change.worktree) record =
      { record with
        changed := record.changed + changes.length
        staged := record.staged || changes.any fun change ↦ isChange change.index
        dirty := record.dirty || changes.any fun change ↦ isChange change.worktree
        untracked := record.untracked || changes.any fun change ↦ change.index == '?' } := by
  induction changes generalizing record with
  | nil => simp
  | cons change changes ih =>
    rw [List.foldl_cons, ih]
    simp [readChange, Bool.or_assoc, Nat.add_assoc, Nat.add_comm 1]

/-- What a printout tells. -/
def summary (divergence : Divergence) (changes : List Change) : StatusRecord where
  repoRoot := ""
  branch := none
  changed := changes.length
  dirty := changes.any fun change ↦ isChange change.worktree
  staged := changes.any fun change ↦ isChange change.index
  untracked := changes.any fun change ↦ change.index == '?'
  ahead := divergence.aheadCount
  behind := divergence.behindCount

theorem summary_perm (divergence : Divergence) {changes others : List Change}
    (h : changes.Perm others) : summary divergence changes = summary divergence others := by
  unfold summary
  rw [h.length_eq, h.any_eq, h.any_eq, h.any_eq]

theorem parse_eq_summary (header : Header) (headerEnd : LineEnd)
    (changes : List (Change × LineEnd)) (closed : Bool) :
    parse (printout header headerEnd changes closed) =
      summary header.divergence (changes.map Prod.fst) := by
  have hrows : ∀ row ∈ (header.text, headerEnd) :: changes.map fun row ↦ (row.1.text, row.2),
      '\n' ∉ row.1 ∧ row.1 ≠ [] := by
    refine List.forall_mem_cons.mpr ⟨⟨header.feed_notMem, List.cons_ne_nil _ _⟩, ?_⟩
    exact List.forall_mem_map.mpr fun row _ ↦ ⟨row.1.feed_notMem_text, List.cons_ne_nil _ _⟩
  obtain ⟨first, reads, hfirst, hreads, hlines⟩ :=
    List.forall₂_cons_left_iff.mp (lines_joined hrows closed)
  have hchanges : List.Forall₂ (fun change read ↦ IsRead change.text read)
      (changes.map Prod.fst) reads := by
    rw [List.forall₂_map_left_iff] at hreads ⊢
    exact hreads
  unfold parse printout
  rw [String.toList_ofList, hlines, List.foldl_cons, header.readLine_of_isRead hfirst,
    foldl_readLine hchanges, foldl_readChange]
  simp [summary, StatusRecord.clean]

/-- Whatever names, paths and line ends look like, a printout is read as what it tells: the number
of its changes, the marks that one of them has, and the divergence. The order of the changes makes
no difference, and the line ends do not either. -/
theorem parse_printout (header : Header) (headerEnd : LineEnd)
    (changes : List (Change × LineEnd)) (closed : Bool) :
    let record := parse (printout header headerEnd changes closed)
    record.changed = changes.length ∧
    (record.staged = true ↔ ∃ row ∈ changes, row.1.index ≠ ' ' ∧ row.1.index ≠ '?') ∧
    (record.dirty = true ↔ ∃ row ∈ changes, row.1.worktree ≠ ' ' ∧ row.1.worktree ≠ '?') ∧
    (record.untracked = true ↔ ∃ row ∈ changes, row.1.index = '?') ∧
    record.ahead = header.divergence.aheadCount ∧
    record.behind = header.divergence.behindCount ∧
    record.repoRoot = "" ∧ record.branch = none ∧
    ∀ others otherEnd otherClosed, (others.map Prod.fst).Perm (changes.map Prod.fst) →
      parse (printout header otherEnd others otherClosed) = record := by
  intro record
  have hrecord : record = summary header.divergence (changes.map Prod.fst) :=
    parse_eq_summary header headerEnd changes closed
  rw [hrecord]
  refine ⟨List.length_map _, ?_, ?_, ?_, rfl, rfl, rfl, rfl, fun others otherEnd otherClosed hperm ↦ ?_⟩
  · simp [summary, isChange_iff]
  · simp [summary, isChange_iff]
  · simp [summary]
  · rw [parse_eq_summary, summary_perm _ hperm]

/-- Names that could be taken for a header or a divergence. -/
def crossed : Header where
  branch := "ahead 5".toList
  upstream := some "origin/##".toList
  divergence := .apart 2 13
  isName_branch := by decide
  isName_upstream := by
    rintro _ ⟨⟩
    decide

def renamed : Change := ⟨'R', ' ', "## [ahead 9]".toList, by decide, by decide, by decide⟩

def fresh : Change := ⟨'?', '?', "behind 7\r".toList, by decide, by decide, by decide⟩

theorem parse_printout_crossed :
    let text := printout crossed .feed [(renamed, .feed), (fresh, .feed)] true
    let others := [(fresh, LineEnd.returnFeed), (renamed, .returnFeed)]
    text = "## ahead 5...origin/## [ahead 2, behind 13]\nR  ## [ahead 9]\n?? behind 7\r\n" ∧
      (parse text).changed = 2 ∧ (parse text).staged = true ∧ ¬ (parse text).dirty = true ∧
      (parse text).ahead = 2 ∧ (parse text).behind = 13 ∧
      (others.map Prod.fst).Perm [renamed, fresh] ∧
      parse (printout crossed .returnFeed others false) = parse text := by
  obtain ⟨hchanged, hstaged, hdirty, -, hahead, hbehind, -, -, hperm⟩ :=
    parse_printout crossed .feed [(renamed, .feed), (fresh, .feed)] true
  have hswap : [fresh, renamed].Perm [renamed, fresh] := List.Perm.swap renamed fresh []
  refine ⟨by decide +kernel, hchanged, hstaged.mpr ?_, mt hdirty.mp ?_, hahead, hbehind, hswap,
    hperm _ .returnFeed false hswap⟩
  · exact ⟨_, List.mem_cons_self, by decide⟩
  · decide

end DirectoryBrowser.Porcelain

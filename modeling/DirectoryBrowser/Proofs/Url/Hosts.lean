import DirectoryBrowser.Proofs.Url.Addresses
import DirectoryBrowser.Proofs.Url.Writing

/-!
# Hosts read back

A reader of hosts accepts addresses and names. The text of a host that one of them
has accepted is accepted again, and written in the same way: a name that is looked
up has been converted, one that keeps its spelling has been escaped, and neither is
done twice. A name that is looked up also keeps its spelling, since nothing in it
has to be escaped.
-/

namespace DirectoryBrowser.Host

open Text Url

variable {host : Host} {text name : List Char} {c : Char}

/-! ### What is accepted -/

/-- The host is an address in brackets. -/
def IsBracketed (host : Host) : Prop := ∃ pieces, host = .ipv6 pieces ∧ IsAddress pieces

theorem isBracketed_of_parseBracketed (h : parseBracketed text = .ok host) : host.IsBracketed := by
  unfold parseBracketed at h
  split at h
  · exact exists_isAddress_of_parseIpv6 h
  · cases h

/-- A name that has been converted and is no address. -/
structure IsConverted (name : List Char) : Prop where
  nonempty : name ≠ []
  kept : Domain.toAscii? name = some name
  plain : ∀ c ∈ name, Domain.IsPlain c
  not_address : endsInNumber name = false

theorem parse_ok (h : parse text = .ok host) :
    host.IsBracketed ∨ (∃ address, host = .ipv4 address) ∨
      ∃ name, host = .domain name ∧ IsConverted name := by
  unfold parse at h
  split at h
  · exact Or.inl (isBracketed_of_parseBracketed h)
  · split at h
    · cases h
    · split at h
      · cases h
      · cases h
      · rename_i decoded _ name hne hname
        split_ifs at h with hends
        · unfold parseIpv4 at h
          dsimp only at h
          split at h
          · cases h
          · split_ifs at h
            exact Or.inr (Or.inl ⟨_, (Except.ok.inj h).symm⟩)
        · obtain ⟨hkept, hplain⟩ := Domain.toAscii?_toAscii? hname
          exact Or.inr (Or.inr ⟨name, (Except.ok.inj h).symm, hne, hkept,
            hplain, by simpa using hends⟩)

/-- Characters that a host may have which keeps its spelling. -/
def StaysVerbatim (c : Char) : Prop :=
  isControl c = false ∧ "\x00\t\n\r #/:<>?@[\\]^|".toList.contains c = false

instance (c : Char) : Decidable (StaysVerbatim c) :=
  inferInstanceAs (Decidable (isControl c = false ∧ _ = false))

theorem staysVerbatim_of_digit (h : (digitIn? 16 c).isSome = true) : StaysVerbatim c := by
  obtain ⟨n, hn⟩ := Option.isSome_iff_exists.mp h
  have hall : ∀ n ∈ List.range 128, (digitIn? 16 (Char.ofNat n)).isSome = true →
      StaysVerbatim (Char.ofNat n) := by decide +kernel
  exact forall_ascii (p := fun c ↦ (digitIn? 16 c).isSome = true → StaysVerbatim c) hall
    (lt_of_digitIn? hn) h

theorem parseVerbatim_ok (h : parseVerbatim text = .ok host) (hnamed : host.isNamed = true) :
    host.IsBracketed ∨ ∃ name, host = .domain name ∧ name ≠ [] ∧ ∀ c ∈ name, StaysVerbatim c := by
  unfold parseVerbatim at h
  split at h
  · obtain rfl := Except.ok.inj h
    cases hnamed
  · exact Or.inl (isBracketed_of_parseBracketed h)
  · rename_i hne _
    split_ifs at h with hforbidden
    refine Or.inr ⟨_, (Except.ok.inj h).symm, percentEncode_ne_nil hne, ?_⟩
    apply forall_mem_percentEncode (by decide) (fun _ hc ↦ staysVerbatim_of_digit hc)
    intro c hc hcontrol
    have hstays := List.any_eq_false.mp (Bool.eq_false_iff.mpr hforbidden) c hc
    exact ⟨hcontrol, by simpa using hstays⟩

/-! ### What is accepted again -/

theorem parseVerbatim_of_stays (hne : name ≠ []) (h : ∀ c ∈ name, StaysVerbatim c) :
    parseVerbatim name = .ok (.domain name) := by
  have hforbidden : (name.any fun c ↦ "\x00\t\n\r #/:<>?@[\\]^|".toList.contains c) = false :=
    List.any_eq_false.mpr fun c hc ↦ Bool.eq_false_iff.mp (h c hc).2
  unfold parseVerbatim
  split
  · exact absurd rfl hne
  · exact Bool.noConfusion (h '[' List.mem_cons_self).2
  · rw [hforbidden, percentEncode_of_plain fun c hc ↦ (h c hc).1]
    rfl

theorem staysVerbatim_of_isPlain (h : Domain.IsPlain c) : StaysVerbatim c := by
  have hall : ∀ n ∈ List.range 128, Domain.IsPlain (Char.ofNat n) →
      StaysVerbatim (Char.ofNat n) := by decide +kernel
  exact forall_ascii (p := fun c ↦ Domain.IsPlain c → StaysVerbatim c) hall
    (of_decide_eq_true h.ascii) h

/-- A converted name is decoded and converted once more without a change. -/
theorem parse_of_plain (hne : name ≠ []) (hplain : ∀ c ∈ name, Domain.IsPlain c)
    (hkept : Domain.toAscii? name = some name) :
    parse name = if endsInNumber name then parseIpv4 name else .ok (.domain name) := by
  have hpercent : percentSign ∉ utf8 name := by
    intro hmem
    have hsign : '%' ∈ name := (mem_utf8_iff (show '%'.toNat < 0x80 by decide)).mp hmem
    exact Bool.noConfusion (hplain '%' hsign).allowed
  have hdecoded : text? (percentDecodeBytes (utf8 name)) = some (String.ofList name) := by
    rw [text?_eq_some_iff, bytesOf, String.toList_ofList]
    have happend := percentDecodeBytes_append hpercent []
    rw [List.append_nil] at happend
    exact (happend.trans (List.append_nil _)).symm
  obtain ⟨c, rest, rfl⟩ := List.exists_cons_of_ne_nil hne
  unfold parse
  split
  · rename_i heq
    obtain ⟨rfl, rfl⟩ := List.cons.inj heq
    exact Bool.noConfusion (hplain '[' List.mem_cons_self).allowed
  · rw [hdecoded]
    dsimp only
    rw [String.toList_ofList, hkept]

theorem IsBracketed.parseBracketed_text (h : host.IsBracketed) :
    ∃ rest, host.text = '[' :: rest ∧ parseBracketed rest = .ok host := by
  obtain ⟨pieces, rfl, haddress⟩ := h
  exact ⟨ipv6Text pieces ++ [']'], rfl, Host.parseBracketed_text haddress⟩

theorem IsBracketed.readHost_text (h : host.IsBracketed) (kind : SchemeKind) :
    readHost kind host.text = .ok host := by
  obtain ⟨rest, htext, hrest⟩ := h.parseBracketed_text
  rw [htext, readHost]
  split_ifs <;> exact hrest

theorem readHost_ordinary_of_plain (hne : name ≠ []) (hplain : ∀ c ∈ name, Domain.IsPlain c) :
    readHost .ordinary name = .ok (.domain name) :=
  parseVerbatim_of_stays hne fun c hc ↦ staysVerbatim_of_isPlain (hplain c hc)

/-- The text of a host that is looked up. -/
theorem exists_readHost_of_parse (h : parse text = .ok host) (kind : SchemeKind) :
    ∃ again, readHost kind host.text = .ok again ∧ again.text = host.text ∧
      again.isNamed = true := by
  rcases parse_ok h with hbracketed | ⟨address, rfl⟩ | ⟨name, rfl, hname⟩
  · refine ⟨host, hbracketed.readHost_text kind, rfl, ?_⟩
    obtain ⟨pieces, rfl, -⟩ := hbracketed
    rfl
  · have hplain := plain_ipv4Text address
    have hne := ipv4Text_ne_nil address
    by_cases hkind : kind = .ordinary
    · subst hkind
      exact ⟨.domain (ipv4Text address), readHost_ordinary_of_plain hne hplain, rfl, rfl⟩
    · obtain ⟨other, hother, hsame⟩ := exists_parseIpv4_ipv4Text address
      refine ⟨.ipv4 other, ?_, hsame, rfl⟩
      rw [readHost, if_neg hkind, Host.text, parse_of_plain hne hplain (toAscii?_ipv4Text address),
        endsInNumber_ipv4Text, if_pos rfl, hother]
  · refine ⟨.domain name, ?_, rfl, rfl⟩
    by_cases hkind : kind = .ordinary
    · subst hkind
      exact readHost_ordinary_of_plain hname.nonempty hname.plain
    · rw [readHost, if_neg hkind, Host.text, parse_of_plain hname.nonempty hname.plain hname.kept,
        hname.not_address]
      rfl

/-- The host of a URL is accepted again, and so it is where it may keep its spelling. -/
theorem exists_readHost {kind other : SchemeKind} (h : readHost kind text = .ok host)
    (hnamed : host.isNamed = true) (hkinds : kind = .ordinary → other = .ordinary) :
    ∃ again, readHost other host.text = .ok again ∧ again.text = host.text ∧
      again.isNamed = true := by
  rw [readHost] at h
  split_ifs at h with hkind
  · obtain rfl := hkinds hkind
    rcases parseVerbatim_ok h hnamed with hbracketed | ⟨name, rfl, hne, hstays⟩
    · exact ⟨host, hbracketed.readHost_text .ordinary, rfl, hnamed⟩
    · exact ⟨.domain name, parseVerbatim_of_stays hne hstays, rfl, rfl⟩
  · exact exists_readHost_of_parse h other

/-! ### Hosts in an authority -/

theorem staysInAuthority_of_staysVerbatim (h : StaysVerbatim c) :
    StaysInAuthority c ∧ c ≠ ':' ∧ c ≠ '@' ∧ c ≠ '[' := by
  have hall : ∀ n ∈ List.range 128, StaysVerbatim (Char.ofNat n) →
      StaysInAuthority (Char.ofNat n) ∧ Char.ofNat n ≠ ':' ∧ Char.ofNat n ≠ '@' ∧
        Char.ofNat n ≠ '[' := by decide +kernel
  exact forall_ascii (p := fun c ↦ StaysVerbatim c →
    StaysInAuthority c ∧ c ≠ ':' ∧ c ≠ '@' ∧ c ≠ '[') hall (lt_of_isControl h.1) h

theorem stays_of_plain (hne : name ≠ []) (h : ∀ c ∈ name, StaysVerbatim c) :
    (∀ c ∈ name, StaysInAuthority c ∧ c ≠ '@') ∧ PassesHost name ∧ name ≠ [] := by
  refine ⟨fun c hc ↦ ?_, passesHost_of_plain fun c hc ↦ ?_, hne⟩
  · obtain ⟨hstays, -, hat, -⟩ := staysInAuthority_of_staysVerbatim (h c hc)
    exact ⟨hstays, hat⟩
  · obtain ⟨-, hcolon, -, hbracket⟩ := staysInAuthority_of_staysVerbatim (h c hc)
    exact ⟨hcolon, hbracket⟩

theorem IsBracketed.stays (h : host.IsBracketed) :
    (∀ c ∈ host.text, StaysInAuthority c ∧ c ≠ '@') ∧ PassesHost host.text ∧ host.text ≠ [] := by
  obtain ⟨pieces, rfl, -⟩ := h
  have hinner : ∀ c ∈ ipv6Text pieces, (StaysInAuthority c ∧ c ≠ '@') ∧ c ≠ '[' ∧ c ≠ ']' := by
    intro c hc
    rcases forall_mem_ipv6Text pieces c hc with rfl | hdigit
    · decide
    · have hstays := staysVerbatim_of_digit hdigit
      obtain ⟨hauthority, -, hat, hopening⟩ := staysInAuthority_of_staysVerbatim hstays
      refine ⟨⟨hauthority, hat⟩, hopening, ?_⟩
      rintro rfl
      exact Bool.noConfusion hstays.2
  refine ⟨?_, passesHost_bracketed fun c hc ↦ (hinner c hc).2, List.cons_ne_nil _ _⟩
  simp only [Host.text, List.forall_mem_append, List.forall_mem_singleton]
  exact ⟨⟨by decide, fun c hc ↦ (hinner c hc).1⟩, by decide⟩

/-- No character of a host ends an authority, and only what follows its text ends the host. -/
theorem stays_of_readHost {kind : SchemeKind} (h : readHost kind text = .ok host)
    (hnamed : host.isNamed = true) :
    (∀ c ∈ host.text, StaysInAuthority c ∧ c ≠ '@') ∧ PassesHost host.text ∧ host.text ≠ [] := by
  rw [readHost] at h
  split_ifs at h
  · rcases parseVerbatim_ok h hnamed with hbracketed | ⟨name, rfl, hne, hstays⟩
    · exact hbracketed.stays
    · exact stays_of_plain hne hstays
  · rcases parse_ok h with hbracketed | ⟨address, rfl⟩ | ⟨name, rfl, hname⟩
    · exact hbracketed.stays
    · exact stays_of_plain (ipv4Text_ne_nil address)
        fun c hc ↦ staysVerbatim_of_isPlain (plain_ipv4Text address c hc)
    · exact stays_of_plain hname.nonempty fun c hc ↦ staysVerbatim_of_isPlain (hname.plain c hc)

/-! ### Texts of hosts -/

theorem isNamed_of_parse (h : parse text = .ok host) : host.isNamed = true := by
  rcases parse_ok h with ⟨pieces, rfl, -⟩ | ⟨address, rfl⟩ | ⟨name, rfl, -⟩ <;> rfl

theorem ne_nil_of_parse (h : parse text = .ok host) : text ≠ [] := by
  rintro rfl
  have hdecoded : text? (percentDecodeBytes (utf8 [])) = some "" := text?_eq_some_iff.mpr rfl
  have hascii : Domain.toAscii? "".toList = some [] := by decide +kernel
  unfold parse at h
  simp only [hdecoded, hascii] at h
  cases h

end DirectoryBrowser.Host

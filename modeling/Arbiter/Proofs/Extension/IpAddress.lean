/-
# IP values are read back as they are shown

An IP value is shown with the length of its network part, so it is read by the rules for networks.
Numerals are read up to the character behind them (`readNumber?_toDigits`), octets up to the slash
(`readV4?_charsV4`), groups up to the slash or to the two colons that stand for a run of zeros
(`readGroups_charsGroups`).  The run that is left out is one of zeros (`longestRun_spec`), so the
groups that are read are those of the address (`readV6?_charsV6`).

A text of groups is no text of octets, because a colon or the slash stands where the first point
would have to (`readV4?_eq_none`).
-/
import Arbiter.Extension.IpAddress.Text
import Arbiter.Proofs.Digits

namespace Arbiter.IpAddress

/-! ## 1. Numerals -/

/-- No digit stands at the start of the text. -/
def NoDigit (base : Nat) (cs : List Char) : Prop := ∀ c ∈ cs.head?, digitValue? base c = none

theorem noDigit_nil (base : Nat) : NoDigit base [] := nofun

theorem noDigit_cons {base : Nat} {c : Char} {cs : List Char}
    (h : c = '.' ∨ c = ':' ∨ c = '/') : NoDigit base (c :: cs) := by
  rintro _ ⟨rfl⟩
  rcases h with rfl | rfl | rfl <;> simp [digitValue?]

theorem digitValue?_digitChar {base d : Nat} (hbase : base ≤ 16) (hd : d < base) :
    digitValue? base (Nat.digitChar d) = some d := by
  have hvalue : ∀ d < 16, ∀ b ≤ 16, d < b → digitValue? b (Nat.digitChar d) = some d := by decide
  exact hvalue d (Nat.lt_of_lt_of_le hd hbase) base hbase hd

theorem takeDigits_of_noDigit {base : Nat} {cs : List Char} (h : NoDigit base cs) :
    takeDigits base cs = ([], cs) := by
  cases cs with
  | nil => rfl
  | cons c cs =>
    have hc := h c rfl
    simp only [takeDigits, hc]

theorem takeDigits_map_append {base : Nat} (hbase : base ≤ 16) {rest : List Char}
    (hrest : NoDigit base rest) : ∀ {ds : List Nat}, (∀ d ∈ ds, d < base) →
      takeDigits base (ds.map Nat.digitChar ++ rest) = (ds, rest)
  | [], _ => takeDigits_of_noDigit hrest
  | d :: ds, h => by
    obtain ⟨hd, hds⟩ := List.forall_mem_cons.mp h
    have hvalue := digitValue?_digitChar hbase hd
    simp only [List.map_cons, List.cons_append, takeDigits, hvalue,
      takeDigits_map_append hbase hrest hds]

/-- A numeral is read up to the character behind it. -/
theorem readNumber?_toDigits {base width limit n : Nat} (h₁ : 1 < base) (h₁₆ : base ≤ 16)
    (hwidth : (Nat.toDigits base n).length ≤ width) (hlimit : n < limit) (leadingZeros : Bool)
    {rest : List Char} (hrest : NoDigit base rest) :
    readNumber? base width limit leadingZeros (Nat.toDigits base n ++ rest) = some (n, rest) := by
  obtain ⟨ds, hds, hlt, hvalue, hhead⟩ := Digits.exists_digits h₁ n
  have hlen : ds.length ≤ width := by
    rw [hds, List.length_map] at hwidth
    exact hwidth
  have hne : ds ≠ [] := by
    rintro rfl
    exact Nat.toDigits_ne_nil hds
  have htake : takeDigits base (Nat.toDigits base n ++ rest) = (ds, rest) := by
    rw [hds]
    exact takeDigits_map_append h₁₆ hrest hlt
  have hrange : ¬ (width < ds.length ∨ limit ≤ n) := by omega
  have hzero : ¬ (ds.head? = some 0 ∧ 1 < ds.length) := by
    rintro ⟨hz, hlong⟩
    have hone := hhead hz
    omega
  unfold readNumber?
  rw [htake]
  split
  · rename_i heq
    cases heq
    exact absurd rfl hne
  · rename_i ds' rest' _ heq
    cases heq
    simp only [hvalue]
    rw [if_neg (by simpa using hrange), if_neg (by
      intro h
      simp only [Bool.and_eq_true, beq_iff_eq, decide_eq_true_eq] at h
      exact hzero ⟨h.1.2, h.2⟩)]

theorem readNumber?_of_noDigit {base width limit : Nat} {leadingZeros : Bool} {cs : List Char}
    (h : NoDigit base cs) : readNumber? base width limit leadingZeros cs = none := by
  unfold readNumber?
  rw [takeDigits_of_noDigit h]

/-- What is left is what is behind the digits. -/
theorem snd_of_readNumber? {base width limit n : Nat} {leadingZeros : Bool} {cs rest : List Char}
    (h : readNumber? base width limit leadingZeros cs = some (n, rest)) :
    rest = (takeDigits base cs).2 := by
  unfold readNumber? at h
  split at h
  · cases h
  · rename_i heq
    simp only at h
    split at h
    · cases h
    · split at h
      · cases h
      · cases h
        rw [heq]

/-! ## 2. Octets -/

@[simp] theorem readChar?_self (c : Char) (cs : List Char) : readChar? c (c :: cs) = some cs :=
  if_pos rfl

theorem readOctet?_decimal {rules : Rules} {n : Nat} (hn : n < 256) {rest : List Char}
    (hrest : NoDigit 10 rest) : readOctet? rules (decimal n ++ rest) = some (n, rest) := by
  have hwidth : (Nat.toDigits 10 n).length ≤ 3 := by
    rw [Nat.length_toDigits_le_iff (by decide) (by decide)]
    omega
  exact readNumber?_toDigits (by decide) (by decide) hwidth hn _ hrest

/-- Octets are read up to the character behind them. -/
theorem readV4?_charsV4 {rules : Rules} {n : Nat} (hn : n < 0x100000000) {rest : List Char}
    (hrest : NoDigit 10 rest) : readV4? rules (charsV4 n ++ rest) = some (n, rest) := by
  have hdot (cs : List Char) : NoDigit 10 ('.' :: cs) := noDigit_cons (Or.inl rfl)
  have hmod (k : Nat) : k % 256 < 256 := Nat.mod_lt k (by decide)
  have hvalue : ((n / 0x1000000 % 256 * 256 + n / 0x10000 % 256) * 256 + n / 256 % 256) * 256
      + n % 256 = n := by omega
  unfold readV4? charsV4
  simp only [List.append_assoc, List.cons_append, readOctet?_decimal (hmod _) (hdot _),
    readOctet?_decimal (hmod _) hrest, Option.bind_eq_bind, Option.bind_some, readChar?_self,
    hvalue]
  rfl

/-- Behind the digits at the start of such a text stands no point. -/
theorem exists_takeDigits (base : Nat) {mark : Char} (hmark : mark = ':' ∨ mark = '/')
    (rest : List Char) : ∀ {cs : List Char}, '.' ∉ cs →
      ∃ c r, (takeDigits base (cs ++ mark :: rest)).2 = c :: r ∧ c ≠ '.'
  | [], _ => by
    refine ⟨mark, rest, ?_, ?_⟩
    · rw [List.nil_append, takeDigits_of_noDigit (noDigit_cons (Or.inr hmark))]
    · rcases hmark with rfl | rfl <;> decide
  | c :: cs, h => by
    rw [List.mem_cons, not_or] at h
    obtain ⟨hc, hcs⟩ := h
    rw [List.cons_append, takeDigits]
    split
    · exact exists_takeDigits base hmark rest hcs
    · exact ⟨c, _, rfl, Ne.symm hc⟩

/-- A text without a point before its first colon or slash is not one of octets. -/
theorem readV4?_eq_none {rules : Rules} {cs : List Char} (hcs : '.' ∉ cs) {mark : Char}
    (hmark : mark = ':' ∨ mark = '/') (rest : List Char) :
    readV4? rules (cs ++ mark :: rest) = none := by
  unfold readV4?
  cases hread : readOctet? rules (cs ++ mark :: rest) with
  | none => rfl
  | some p =>
    obtain ⟨c, r, htake, hc⟩ := exists_takeDigits 10 hmark rest hcs
    have hleft : p.2 = c :: r := (snd_of_readNumber? hread).trans htake
    simp only [Option.bind_eq_bind, Option.bind_some, hleft, readChar?, if_neg (Ne.symm hc),
      Option.bind_none]

/-! ## 3. Groups -/

theorem dot_notMem_toDigits (n : Nat) : '.' ∉ Nat.toDigits 16 n := by
  obtain ⟨ds, hds, -⟩ := Digits.exists_digits (show 1 < 16 by decide) n
  rw [hds]
  intro h
  obtain ⟨d, -, hd⟩ := List.mem_map.mp h
  exact Nat.digitChar_ne '.' (by decide) hd

/-- Groups with a colon in front of each. -/
def colonGroups (gs : List Nat) : List Char := gs.flatMap fun g => ':' :: Nat.toDigits 16 g

theorem charsGroups_cons (g : Nat) : ∀ gs : List Nat,
    charsGroups (g :: gs) = Nat.toDigits 16 g ++ colonGroups gs
  | [] => by simp [charsGroups, colonGroups]
  | g' :: gs => by
    have ih := charsGroups_cons g' gs
    unfold charsGroups at ih ⊢
    rw [List.map_cons, List.map_cons, List.intercalate_cons_cons, ← List.map_cons, ih]
    simp [colonGroups]

/-- The text at which groups end: the slash, or the colons that stand for zeros. -/
inductive Stops : List Char → Prop
  | slash (cs : List Char) : Stops ('/' :: cs)
  | run (cs : List Char) : Stops (':' :: ':' :: cs)

/-- A colon or the slash stands behind every group. -/
theorem exists_mark {rest : List Char} (hrest : Stops rest) (gs : List Nat) :
    ∃ mark r, colonGroups gs ++ rest = mark :: r ∧ (mark = ':' ∨ mark = '/') := by
  cases gs with
  | cons g gs => exact ⟨':', _, rfl, Or.inl rfl⟩
  | nil =>
    cases hrest with
    | slash cs => exact ⟨'/', cs, rfl, Or.inr rfl⟩
    | run cs => exact ⟨':', ':' :: cs, rfl, Or.inl rfl⟩

variable {rules : Rules}

/-- No group stands where groups end. -/
theorem readGroups_of_stops {rest : List Char} (hrest : Stops rest) (room : Nat) (isFirst : Bool) :
    readGroups rules room isFirst rest = ⟨[], false, rest⟩ := by
  have hnone (cs : List Char) (h : beforeGroup? isFirst rest = some cs) :
      readV4? rules cs = none ∧ readNumber? 16 4 65536 true cs = none := by
    have hcs : ∃ mark r, cs = mark :: r ∧ (mark = ':' ∨ mark = '/') := by
      cases isFirst with
      | true =>
        cases h
        exact exists_mark hrest []
      | false =>
        cases hrest with
        | slash _ => cases h
        | run r =>
          cases h
          exact ⟨':', r, rfl, Or.inl rfl⟩
    obtain ⟨mark, r, rfl, hmark⟩ := hcs
    exact ⟨readV4?_eq_none List.not_mem_nil hmark r,
      readNumber?_of_noDigit (noDigit_cons (Or.inr hmark))⟩
  cases room with
  | zero => rfl
  | succ room =>
    unfold readGroups
    cases h : beforeGroup? isFirst rest with
    | none => simp
    | some cs => simp [hnone cs h]

/-- A group is read up to the colon or the slash behind it. -/
theorem readGroups_succ {isFirst : Bool} (room : Nat) {g : Nat} (hg : g < 65536) {cs : List Char}
    {mark : Char} (hmark : mark = ':' ∨ mark = '/') (rest : List Char)
    (h : beforeGroup? isFirst cs = some (Nat.toDigits 16 g ++ mark :: rest)) :
    readGroups rules (room + 1) isFirst cs =
      ⟨g :: (readGroups rules room false (mark :: rest)).values,
        (readGroups rules room false (mark :: rest)).octets,
        (readGroups rules room false (mark :: rest)).rest⟩ := by
  have hv4 : readV4? rules (Nat.toDigits 16 g ++ mark :: rest) = none :=
    readV4?_eq_none (dot_notMem_toDigits g) hmark rest
  have hwidth : (Nat.toDigits 16 g).length ≤ 4 := by
    rw [Nat.length_toDigits_le_iff (by decide) (by decide)]
    exact hg
  have hgroup : readNumber? 16 4 65536 true (Nat.toDigits 16 g ++ mark :: rest)
      = some (g, mark :: rest) :=
    readNumber?_toDigits (by decide) (by decide) hwidth hg true (noDigit_cons (Or.inr hmark))
  rw [readGroups]
  simp [h, hv4, hgroup]

theorem readGroups_colonGroups {rest : List Char} (hrest : Stops rest) :
    ∀ {gs : List Nat} {room : Nat}, (∀ g ∈ gs, g < 65536) → gs.length ≤ room →
      readGroups rules room false (colonGroups gs ++ rest) = ⟨gs, false, rest⟩
  | [], room, _, _ => readGroups_of_stops hrest room false
  | g :: gs, 0, _, hlen => absurd hlen (Nat.not_succ_le_zero _)
  | g :: gs, room + 1, hgs, hlen => by
    obtain ⟨hg, hgs⟩ := List.forall_mem_cons.mp hgs
    obtain ⟨mark, r, hr, hmark⟩ := exists_mark hrest gs
    have hbefore : beforeGroup? false (colonGroups (g :: gs) ++ rest)
        = some (Nat.toDigits 16 g ++ mark :: r) := by
      rw [← hr]
      simp [colonGroups, beforeGroup?]
    rw [readGroups_succ room hg hmark r hbefore, ← hr,
      readGroups_colonGroups hrest hgs (Nat.le_of_succ_le_succ hlen)]

/-- Groups are read up to where they end. -/
theorem readGroups_charsGroups {rest : List Char} (hrest : Stops rest) {gs : List Nat} {room : Nat}
    (hgs : ∀ g ∈ gs, g < 65536) (hlen : gs.length ≤ room) :
    readGroups rules room true (charsGroups gs ++ rest) = ⟨gs, false, rest⟩ := by
  cases gs with
  | nil => exact readGroups_of_stops hrest room true
  | cons g gs =>
    obtain ⟨hg, hgs⟩ := List.forall_mem_cons.mp hgs
    obtain ⟨mark, r, hr, hmark⟩ := exists_mark hrest gs
    cases room with
    | zero => cases hlen
    | succ room =>
      have hbefore : beforeGroup? true (charsGroups (g :: gs) ++ rest)
          = some (Nat.toDigits 16 g ++ mark :: r) := by
        rw [← hr, charsGroups_cons, List.append_assoc]
        rfl
      rw [readGroups_succ room hg hmark r hbefore, ← hr,
        readGroups_colonGroups hrest hgs (Nat.le_of_succ_le_succ hlen)]

/-! ## 4. Long addresses -/

@[simp] theorem length_groupsOf (n : Nat) : ∀ count, (groupsOf count n).length = count
  | 0 => rfl
  | count + 1 => by
    rw [groupsOf, List.length_append, length_groupsOf (n / 65536) count]
    rfl

theorem lt_of_mem_groupsOf {g : Nat} : ∀ {count n : Nat}, g ∈ groupsOf count n → g < 65536
  | count + 1, n, h => by
    rw [groupsOf] at h
    rcases List.mem_append.mp h with h | h
    · exact lt_of_mem_groupsOf h
    · cases List.mem_singleton.mp h
      exact Nat.mod_lt n (by decide)

theorem ofGroups_append_singleton (gs : List Nat) (g : Nat) :
    ofGroups (gs ++ [g]) = ofGroups gs * 65536 + g := by
  simp [ofGroups]

theorem ofGroups_groupsOf : ∀ (count n : Nat), n < 65536 ^ count →
    ofGroups (groupsOf count n) = n
  | 0, n, h => by
    have hn : n = 0 := by simpa using h
    rw [hn]
    rfl
  | count + 1, n, h => by
    have hlt : n / 65536 < 65536 ^ count := by
      rw [Nat.div_lt_iff_lt_mul (by decide)]
      exact h
    rw [groupsOf, ofGroups_append_singleton, ofGroups_groupsOf count _ hlt]
    exact Nat.div_add_mod' n 65536

/-- The run at the start is one of zeros. -/
theorem eq_replicate_zeroRun : ∀ gs : List Nat,
    gs = List.replicate (zeroRun gs) 0 ++ gs.drop (zeroRun gs)
  | [] => rfl
  | g :: gs => by
    by_cases hg : g = 0
    · have hrun : zeroRun (g :: gs) = zeroRun gs + 1 := by simp [zeroRun, hg]
      rw [hrun, List.replicate_succ, List.drop_succ_cons, List.cons_append,
        ← eq_replicate_zeroRun gs, hg]
    · have hrun : zeroRun (g :: gs) = 0 := by simp [zeroRun, hg]
      rw [hrun]
      rfl

/-- The longest run is one of zeros, with what stands before and behind it. -/
theorem longestRun_spec : ∀ {gs : List Nat} {index start length : Nat},
    longestRun index gs = (start, length) → 0 < length →
      index ≤ start ∧ gs = gs.take (start - index) ++ List.replicate length 0
        ++ gs.drop (start - index + length)
  | [], _, _, _, h, hpos => by
    cases h
    cases hpos
  | g :: gs, index, start, length, h, hpos => by
    simp only [longestRun] at h
    split at h
    · cases h
      refine ⟨Nat.le_refl _, ?_⟩
      rw [Nat.sub_self, List.take_zero, List.nil_append, Nat.zero_add]
      exact eq_replicate_zeroRun (g :: gs)
    · obtain ⟨hle, hgs⟩ := longestRun_spec h hpos
      have hstart : start - index = start - (index + 1) + 1 := by omega
      refine ⟨by omega, ?_⟩
      rw [hstart, List.take_succ_cons, Nat.add_right_comm, List.drop_succ_cons, List.cons_append,
        List.cons_append, ← hgs]

/-- The two groups of four octets. -/
theorem readGroups_octets {n : Nat} (hn : n < 0x100000000) {room : Nat} (hroom : 2 ≤ room)
    (cs : List Char) :
    readGroups rules room false (':' :: charsV4 n ++ '/' :: cs)
      = ⟨[n / 65536, n % 65536], true, '/' :: cs⟩ := by
  obtain ⟨room, rfl⟩ := Nat.exists_eq_add_of_le hroom
  have hv4 : readV4? rules (charsV4 n ++ '/' :: cs) = some (n, '/' :: cs) :=
    readV4?_charsV4 hn (noDigit_cons (Or.inr (Or.inr rfl)))
  rw [Nat.add_comm, readGroups]
  simp [beforeGroup?, hv4]

/-- Groups that are cut at the two colons. -/
theorem readV6?_of_run {head : List Nat} (hhead : ∀ g ∈ head, g < 65536)
    (hlen : head.length < groupCount) {text rest : List Char} {tail : List Nat} {octets : Bool}
    (htail : readGroups networkRules (groupCount - head.length) true text
      = ⟨tail, octets, '/' :: rest⟩) :
    readV6? networkRules (charsGroups head ++ ':' :: ':' :: text)
      = some (ofGroups (head ++ List.replicate (groupCount - head.length - tail.length) 0 ++ tail),
        '/' :: rest) := by
  have hgroups : readGroups networkRules groupCount true (charsGroups head ++ ':' :: ':' :: text)
      = ⟨head, false, ':' :: ':' :: text⟩ :=
    readGroups_charsGroups (.run text) hhead (Nat.le_of_lt hlen)
  have hrun : networkRules.leastRun = 0 := rfl
  unfold readV6?
  simp only [hgroups]
  rw [if_neg (Nat.ne_of_lt hlen)]
  simp [htail, hrun]

/-- A long address is read up to the slash behind it. -/
theorem readV6?_charsV6 {n : Nat} (hn : n < 65536 ^ groupCount) (cs : List Char) :
    readV6? networkRules (charsV6 n ++ '/' :: cs) = some (n, '/' :: cs) := by
  have hlt : ∀ g ∈ groupsOf groupCount n, g < 65536 := fun _ => lt_of_mem_groupsOf
  have hvalue := ofGroups_groupsOf groupCount n hn
  have hlen : (groupsOf groupCount n).length = groupCount := length_groupsOf n groupCount
  unfold charsV6
  simp only
  split
  · -- an address that carries four octets
    rename_i hcarries
    have hoctets : n % 0x100000000 < 0x100000000 := Nat.mod_lt n (by decide)
    have htail : readGroups networkRules groupCount true
        ("ffff:".toList ++ charsV4 (n % 0x100000000) ++ '/' :: cs)
          = ⟨[0xffff, n % 0x100000000 / 65536, n % 0x100000000 % 65536], true, '/' :: cs⟩ := by
      have hfirst : beforeGroup? true ("ffff:".toList ++ charsV4 (n % 0x100000000) ++ '/' :: cs)
          = some (Nat.toDigits 16 0xffff ++ ':' :: (charsV4 (n % 0x100000000) ++ '/' :: cs)) := rfl
      rw [groupCount, readGroups_succ 7 (by decide) (Or.inl rfl) _ hfirst, ← List.cons_append,
        readGroups_octets hoctets (by decide)]
    have hread := readV6?_of_run (List.forall_mem_nil _) (by decide) htail
    have hgroups : ofGroups ([] ++ List.replicate (groupCount - 0 - 3) 0
        ++ [0xffff, n % 0x100000000 / 65536, n % 0x100000000 % 65536]) = n := by
      simp only [ofGroups, groupCount, List.replicate, List.nil_append, List.cons_append,
        List.foldl_cons, List.foldl_nil]
      omega
    exact hread.trans (congrArg (fun m => some (m, '/' :: cs)) hgroups)
  · split
    · -- a run of zeros is left out
      rename_i hlong
      generalize hrun : longestRun 0 (groupsOf groupCount n) = run at hlong
      obtain ⟨start, length⟩ := run
      obtain ⟨-, hgs⟩ := longestRun_spec hrun (Nat.lt_trans Nat.one_pos hlong)
      rw [Nat.sub_zero] at hgs
      generalize groupsOf groupCount n = gs at *
      have hbounds : start + length ≤ groupCount ∧ (gs.take start).length = start := by
        have hcount := congrArg List.length hgs
        simp only [List.length_append, List.length_take, List.length_replicate, List.length_drop,
          hlen] at hcount ⊢
        omega
      obtain ⟨hstart, hhead⟩ := hbounds
      have htail : readGroups networkRules (groupCount - (gs.take start).length) true
          (charsGroups (gs.drop (start + length)) ++ '/' :: cs)
            = ⟨gs.drop (start + length), false, '/' :: cs⟩ :=
        readGroups_charsGroups (.slash cs) (fun g hg => hlt g (List.mem_of_mem_drop hg))
          (by rw [List.length_drop]; omega)
      have hread := readV6?_of_run (fun g hg => hlt g (List.mem_of_mem_take hg))
        (by omega) htail
      have hzeros : groupCount - (gs.take start).length - (gs.drop (start + length)).length
          = length := by
        rw [List.length_drop]
        omega
      rw [hzeros, ← hgs, hvalue] at hread
      simpa using hread
    · -- all groups are written
      have hread : readGroups networkRules groupCount true
          (charsGroups (groupsOf groupCount n) ++ '/' :: cs)
            = ⟨groupsOf groupCount n, false, '/' :: cs⟩ :=
        readGroups_charsGroups (.slash cs) hlt (Nat.le_of_eq hlen)
      unfold readV6?
      simp only [hread]
      rw [if_pos hlen, hvalue]

/-! ## 5. Networks -/

theorem readLength?_decimal {digits width len : Nat} (hlen : len ≤ width)
    (hdigits : width < 10 ^ digits) (hpos : 0 < digits) :
    readLength? digits width ('/' :: decimal len) = some (len, []) := by
  have hwidth : (Nat.toDigits 10 len).length ≤ digits := by
    rw [Nat.length_toDigits_le_iff (by decide) hpos]
    exact Nat.lt_of_le_of_lt hlen hdigits
  have hnumber : readNumber? 10 digits (width + 1) true (Nat.toDigits 10 len ++ [])
      = some (len, []) :=
    readNumber?_toDigits (by decide) (by decide) hwidth (Nat.lt_succ_of_le hlen) true
      (noDigit_nil 10)
  rw [List.append_nil] at hnumber
  unfold readLength? decimal
  simp [hnumber]

/-- A long address is not read as octets. -/
theorem readNetwork4?_charsV6 (n : Nat) (cs : List Char) :
    readNetwork4? (charsV6 n ++ '/' :: cs) = none := by
  have hgroups (gs : List Nat) {rest : List Char} (hrest : Stops rest) :
      readV4? networkRules (charsGroups gs ++ rest) = none := by
    cases gs with
    | nil =>
      obtain ⟨mark, r, hr, hmark⟩ := exists_mark hrest []
      exact hr ▸ readV4?_eq_none List.not_mem_nil hmark r
    | cons g gs =>
      obtain ⟨mark, r, hr, hmark⟩ := exists_mark hrest gs
      rw [charsGroups_cons, List.append_assoc, hr]
      exact readV4?_eq_none (dot_notMem_toDigits g) hmark r
  have hnone : readV4? networkRules (charsV6 n ++ '/' :: cs) = none := by
    unfold charsV6
    simp only
    split
    · exact hgroups [] (.run ("ffff:".toList ++ charsV4 (n % 0x100000000) ++ '/' :: cs))
    · split
      · rw [List.append_assoc, List.append_assoc]
        exact hgroups _ (.run _)
      · exact hgroups _ (.slash cs)
  unfold readNetwork4?
  simp [hnone]

/-- **An IP value is read back as it is shown.** -/
theorem parse?_render (a : IpAddress) : parse? a.render = some a := by
  have hslash : (a.addrChars ++ '/' :: decimal a.len).contains '/' = true := by simp
  unfold parse? render
  simp only [String.toList_ofList, hslash, if_true]
  unfold parseNetwork?
  cases a with
  | v4 net =>
    have hlen : readLength? 2 32 ('/' :: decimal net.len) = some (net.len, []) :=
      readLength?_decimal net.len_le (by decide) (by decide)
    have hread : readNetwork4? (charsV4 net.addr.toNat ++ '/' :: decimal net.len)
        = some (.v4 net, []) := by
      unfold readNetwork4?
      simp [readV4?_charsV4 net.addr.isLt (noDigit_cons (Or.inr (Or.inr rfl))), hlen, net.len_le]
    simp only [addrChars, len, hread]
    rfl
  | v6 net =>
    have hlen : readLength? 3 128 ('/' :: decimal net.len) = some (net.len, []) :=
      readLength?_decimal net.len_le (by decide) (by decide)
    have hread : readNetwork6? (charsV6 net.addr.toNat ++ '/' :: decimal net.len)
        = some (.v6 net, []) := by
      unfold readNetwork6?
      simp [readV6?_charsV6 net.addr.isLt, hlen, net.len_le]
    simp only [addrChars, len, readNetwork4?_charsV6, hread]
    rfl

end Arbiter.IpAddress

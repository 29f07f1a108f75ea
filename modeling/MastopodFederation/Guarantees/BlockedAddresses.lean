import MastopodFederation.Source.SsrfGuard

/-!
# The addresses that the guard refuses

`Forbidden` says which addresses a fetcher of remote media has no business with. What the guard
lets through is forbidden exactly when it lies in the `Gap`: the link-local addresses from
`fe81::` on, and the IPv4-compatible form of a forbidden IPv4 address.
-/
namespace MastopodFederation.Guarantees.BlockedAddresses
open Source.SsrfGuard

def ForbiddenIpv4 (ip : Ipv4) : Prop :=
  ip.a = 127 ∨ ip.a = 10 ∨ (ip.a = 172 ∧ 16 ≤ ip.b ∧ ip.b ≤ 31) ∨ (ip.a = 192 ∧ ip.b = 168) ∨
    (ip.a = 100 ∧ 64 ≤ ip.b ∧ ip.b ≤ 127) ∨ (ip.a = 169 ∧ ip.b = 254) ∨
    (224 ≤ ip.a ∧ ip.a ≤ 239) ∨ (ip.a = 0 ∧ ip.b = 0 ∧ ip.c = 0 ∧ ip.d = 0)

def embedded (high low : Fin 65536) : Ipv4 where
  a := ⟨high / 256, by omega⟩
  b := ⟨high % 256, by omega⟩
  c := ⟨low / 256, by omega⟩
  d := ⟨low % 256, by omega⟩

inductive ForbiddenGroups : List (Fin 65536) → Prop
  | unspecified : ForbiddenGroups [0, 0, 0, 0, 0, 0, 0, 0]
  | loopback : ForbiddenGroups [0, 0, 0, 0, 0, 0, 0, 1]
  | linkLocal (first : Fin 65536) (rest : List (Fin 65536)) (least : 0xfe80 ≤ first.val)
      (most : first.val ≤ 0xfebf) : ForbiddenGroups (first :: rest)
  | uniqueLocal (first : Fin 65536) (rest : List (Fin 65536)) (least : 0xfc00 ≤ first.val)
      (most : first.val ≤ 0xfdff) : ForbiddenGroups (first :: rest)
  | multicast (first : Fin 65536) (rest : List (Fin 65536)) (least : 0xff00 ≤ first.val) :
      ForbiddenGroups (first :: rest)
  | mapped (high low : Fin 65536) : ForbiddenGroups [0, 0, 0, 0, 0, 0xffff, high, low]
  | compatible (high low : Fin 65536) (inner : ForbiddenIpv4 (embedded high low)) :
      ForbiddenGroups [0, 0, 0, 0, 0, 0, high, low]
  | sixToFour (high low : Fin 65536) (rest : List (Fin 65536))
      (inner : ForbiddenIpv4 (embedded high low)) :
      ForbiddenGroups (0x2002 :: high :: low :: rest)
  | nat64 (high low : Fin 65536) (inner : ForbiddenIpv4 (embedded high low)) :
      ForbiddenGroups [0x64, 0xff9b, 0, 0, 0, 0, high, low]

def Forbidden : Address → Prop
  | .v4 ip => ForbiddenIpv4 ip
  | .v6 ip => ForbiddenGroups ip.groups

inductive GapGroups : List (Fin 65536) → Prop
  | linkLocal (first : Fin 65536) (rest : List (Fin 65536)) (least : 0xfe81 ≤ first.val)
      (most : first.val ≤ 0xfebf) : GapGroups (first :: rest)
  | compatible (high low : Fin 65536) (inner : ForbiddenIpv4 (embedded high low)) :
      GapGroups [0, 0, 0, 0, 0, 0, high, low]

def Gap : Address → Prop
  | .v4 _ => False
  | .v6 ip => GapGroups ip.groups

variable {address : Address}

theorem Gap.forbidden (gap : Gap address) : Forbidden address := by
  cases address with
  | v4 ip => exact gap.elim
  | v6 ip =>
    obtain ⟨groups, eight⟩ := ip
    cases gap with
    | linkLocal first rest least most =>
      exact .linkLocal first rest (by omega) most
    | compatible high low inner => exact .compatible high low inner

theorem ipv4ToInt_eq (ip : Ipv4) :
    ipv4ToInt ip = ip.a * 2 ^ 24 + ip.b * 2 ^ 16 + ip.c * 2 ^ 8 + ip.d := by
  obtain ⟨a, b, c, d⟩ := ip
  simp only [ipv4ToInt, List.foldl, BitVec.toNat_add, BitVec.toNat_shiftLeft, BitVec.toNat_ofNat,
    Nat.shiftLeft_eq]
  omega

theorem accepted_ipv4 {ip : Ipv4} (accepted : assertPublicIp (.v4 ip) = .ok ()) :
    ¬ ForbiddenIpv4 ip := by
  have outside : ∀ range ∈ privateIpv4Ranges,
      ¬ (ipv4ToInt range.1 ≤ ipv4ToInt ip ∧ ipv4ToInt ip ≤ ipv4ToInt range.2) := by
    intro range listed inside
    simp only [assertPublicIp] at accepted
    split at accepted
    · cases accepted
    · rename_i none_holds
      exact none_holds (List.any_eq_true.mpr ⟨range, listed, by simpa using inside⟩)
  obtain ⟨a, b, c, d⟩ := ip
  simp only [privateIpv4Ranges, List.forall_mem_cons, ipv4ToInt_eq] at outside
  simp only [ForbiddenIpv4, Fin.ext_iff, Fin.le_def]
  simp at outside ⊢
  omega

def Late (run : Nat × Nat) : Prop := run.2 = 0 ∨ 1 ≤ run.1

theorem longerRun_late {best current : Nat × Nat} (best_late : Late best)
    (current_late : Late current) : Late (longerRun best current) := by
  unfold longerRun
  split
  · exact current_late
  · exact best_late

theorem scanRuns_late (words : List Nat) {i : Nat} {best current : Nat × Nat} (later : 1 ≤ i)
    (best_late : Late best) (current_late : Late current) :
    Late (scanRuns i words best current) := by
  induction words generalizing i best current with
  | nil => exact longerRun_late best_late current_late
  | cons word rest ih =>
    unfold scanRuns
    split
    · apply ih (by omega) best_late
      split
      · exact .inr later
      · exact .inr (current_late.resolve_left (by assumption))
    · exact ih (by omega) (longerRun_late best_late current_late) (.inl rfl)

theorem compressedRun_late {word : Nat} (rest : List Nat) (nonzero : word ≠ 0) :
    Late (compressedRun (word :: rest)) := by
  have scanned : Late (scanRuns 0 (word :: rest) (0, 0) (0, 0)) := by
    unfold scanRuns
    rw [if_neg nonzero]
    exact scanRuns_late rest (Nat.le_refl 1) (.inl rfl) (.inl rfl)
  simp only [compressedRun]
  split
  · exact .inl rfl
  · exact scanned

theorem groupTexts_colon {run : Nat × Nat} (mapped : Bool) (word : Nat) (rest : List Nat)
    (late : Late run) : ∃ more, groupTexts run mapped 1 (word :: rest) = ':' :: more := by
  unfold groupTexts
  split
  · rename_i inside
    simp only [Bool.and_eq_true, decide_eq_true_eq] at inside
    have starts : 1 = run.1 := by rcases late with none | later <;> omega
    rw [if_pos starts]
    exact ⟨_, rfl⟩
  · exact ⟨_, rfl⟩

variable {first second : Fin 65536} {rest : List (Fin 65536)}

theorem ipv6Text_first (eight : (first :: second :: rest).length = 8) (nonzero : first ≠ 0) :
    ∃ more, ipv6Text ⟨first :: second :: rest, eight⟩ = hex first ++ ':' :: more := by
  have late := compressedRun_late ((second :: rest).map (·.val))
    (fun zero => nonzero (Fin.ext zero) : first.val ≠ 0)
  obtain ⟨more, colon⟩ := groupTexts_colon
    (((first :: second :: rest).map (·.val))[5]? == some 65535) second.val (rest.map (·.val)) late
  refine ⟨more, ?_⟩
  simp only [ipv6Text, List.map_cons] at colon late ⊢
  have outside : ¬ ((decide ((compressedRun (first.val :: second.val :: rest.map (·.val))).1 ≤ 0) &&
      decide (0 < (compressedRun (first.val :: second.val :: rest.map (·.val))).1 +
        (compressedRun (first.val :: second.val :: rest.map (·.val))).2)) = true) := by
    simp only [Bool.and_eq_true, decide_eq_true_eq]
    rcases late with none | later <;> omega
  rw [groupTexts]
  · rw [if_neg outside, colon]
    rfl
  · omega

theorem hex_four {n : Nat} (large : 4096 ≤ n) (small : n < 65536) :
    hex n = [Nat.digitChar (n / 4096), Nat.digitChar (n / 256 % 16), Nat.digitChar (n / 16 % 16),
      Nat.digitChar (n % 16)] := by
  unfold hex
  rw [Nat.toDigits_eq_if (by decide), if_neg (by omega), Nat.toDigits_eq_if (by decide),
    if_neg (by omega), Nat.toDigits_eq_if (by decide), if_neg (by omega),
    Nat.toDigits_of_lt_base (by omega)]
  simp [Nat.div_div_eq_div_mul]

variable (start : String)

theorem refused_start {ip : Ipv6} (listed : start ∈ blockedIpv6Starts)
    (starts : startsWith (ipv6Text ip) start = true) : assertPublicIp (.v6 ip) ≠ .ok () := by
  intro accepted
  simp only [assertPublicIp] at accepted
  split at accepted
  · cases accepted
  · rename_i none_holds
    apply none_holds
    rw [Bool.or_eq_true]
    exact .inr (List.any_eq_true.mpr ⟨start, listed, starts⟩)

theorem refused_text {ip : Ipv6} (text : String) (listed : text ∈ blockedIpv6Texts)
    (same : text.toList = ipv6Text ip) : assertPublicIp (.v6 ip) ≠ .ok () := by
  intro accepted
  simp only [assertPublicIp] at accepted
  split at accepted
  · cases accepted
  · rename_i none_holds
    apply none_holds
    rw [Bool.or_eq_true]
    exact .inl (List.any_eq_true.mpr ⟨text, listed, by simpa using same⟩)

theorem startsWith_append (more : List Char) : startsWith (start.toList ++ more) start = true := by
  simp [startsWith]

theorem refused_first (eight : (first :: second :: rest).length = 8) (nonzero : first ≠ 0)
    (listed : start ∈ blockedIpv6Starts) (same : start.toList = hex first ++ [':']) :
    assertPublicIp (.v6 ⟨first :: second :: rest, eight⟩) ≠ .ok () := by
  obtain ⟨more, text⟩ := ipv6Text_first eight nonzero
  apply refused_start start listed
  rw [text, show hex first ++ ':' :: more = start.toList ++ more by simp [same]]
  exact startsWith_append start more

theorem refused_digits (eight : (first :: second :: rest).length = 8) (large : 4096 ≤ first.val)
    (listed : start ∈ blockedIpv6Starts)
    (same : start.toList = [Nat.digitChar (first.val / 4096), Nat.digitChar (first.val / 256 % 16)]) :
    assertPublicIp (.v6 ⟨first :: second :: rest, eight⟩) ≠ .ok () := by
  have nonzero : first ≠ 0 := by
    rintro rfl
    exact absurd large (by decide)
  obtain ⟨more, text⟩ := ipv6Text_first eight nonzero
  apply refused_start start listed
  rw [text, hex_four large first.isLt]
  rw [startsWith, same]
  simp

theorem refused_mapped (high low : Fin 65536) :
    assertPublicIp (.v6 ⟨[0, 0, 0, 0, 0, 0xffff, high, low], rfl⟩) ≠ .ok () := by
  have run : compressedRun [0, 0, 0, 0, 0, 65535, high.val, low.val] = (0, 5) := by
    by_cases zero : high.val = 0 <;> by_cases zero' : low.val = 0 <;>
      simp [compressedRun, scanRuns, longerRun, zero, zero']
  have text : ipv6Text ⟨[0, 0, 0, 0, 0, 0xffff, high, low], rfl⟩ =
      groupTexts (0, 5) true 0 [0, 0, 0, 0, 0, 65535, high.val, low.val] := by
    change groupTexts (compressedRun [0, 0, 0, 0, 0, 65535, high.val, low.val]) _ 0 _ = _
    rw [run]
    rfl
  have starts : groupTexts (0, 5) true 0 [0, 0, 0, 0, 0, 65535, high.val, low.val] =
      "::ffff:".toList ++ embeddedIpv4 high.val low.val := by
    simp [groupTexts, show hex 65535 = "ffff".toList by decide]
  apply refused_start "::ffff:" (by decide)
  rw [text, starts]
  exact startsWith_append _ _

theorem refused_nat64 (high low : Fin 65536) :
    assertPublicIp (.v6 ⟨[0x64, 0xff9b, 0, 0, 0, 0, high, low], rfl⟩) ≠ .ok () := by
  have run : ∃ length, (length = 4 ∨ length = 5 ∨ length = 6) ∧
      compressedRun [100, 65435, 0, 0, 0, 0, high.val, low.val] = (2, length) := by
    by_cases zero : high.val = 0 <;> by_cases zero' : low.val = 0 <;>
      simp [compressedRun, scanRuns, longerRun, zero, zero']
  obtain ⟨length, lengths, run⟩ := run
  have text : ipv6Text ⟨[0x64, 0xff9b, 0, 0, 0, 0, high, low], rfl⟩ =
      groupTexts (2, length) false 0 [100, 65435, 0, 0, 0, 0, high.val, low.val] := by
    change groupTexts (compressedRun [100, 65435, 0, 0, 0, 0, high.val, low.val]) _ 0 _ = _
    rw [run]
    rfl
  have starts : ∃ more, groupTexts (2, length) false 0
      [100, 65435, 0, 0, 0, 0, high.val, low.val] = "64:ff9b:".toList ++ more := by
    rcases lengths with rfl | rfl | rfl <;>
      simp [groupTexts, show hex 100 = "64".toList by decide,
        show hex 65435 = "ff9b".toList by decide]
  obtain ⟨more, starts⟩ := starts
  apply refused_start "64:ff9b:" (by decide)
  rw [text, starts]
  exact startsWith_append _ _

theorem accepted_forbidden (accepted : assertPublicIp address = .ok ())
    (forbidden : Forbidden address) : Gap address := by
  cases address with
  | v4 ip => exact absurd forbidden (accepted_ipv4 accepted)
  | v6 ip =>
    obtain ⟨groups, eight⟩ := ip
    cases forbidden with
    | unspecified => exact absurd accepted (refused_text "::" (by decide) rfl)
    | loopback => exact absurd accepted (refused_text "::1" (by decide) rfl)
    | linkLocal first rest least most =>
      by_cases known : first = 0xfe80
      · subst known
        match rest, eight with
        | _ :: _, eight =>
          exact absurd accepted
            (refused_first "fe80:" eight (by decide) (by decide) (by decide))
      · have other : first.val ≠ 0xfe80 := fun same => known (Fin.ext same)
        exact .linkLocal first rest (by omega) most
    | uniqueLocal first rest least most =>
      have four : first.val / 4096 = 15 := by omega
      have third : first.val / 256 % 16 = 12 ∨ first.val / 256 % 16 = 13 := by omega
      match rest, eight with
      | _ :: _, eight =>
        rcases third with third | third
        · exact absurd accepted (refused_digits "fc" eight (by omega) (by decide)
            (by rw [four, third]; rfl))
        · exact absurd accepted (refused_digits "fd" eight (by omega) (by decide)
            (by rw [four, third]; rfl))
    | multicast first rest least =>
      have four : first.val / 4096 = 15 := by omega
      have third : first.val / 256 % 16 = 15 := by omega
      match rest, eight with
      | _ :: _, eight =>
        exact absurd accepted (refused_digits "ff" eight (by omega) (by decide)
          (by rw [four, third]; rfl))
    | mapped high low => exact absurd accepted (refused_mapped high low)
    | compatible high low inner => exact .compatible high low inner
    | sixToFour high low rest inner =>
      exact absurd accepted (refused_first "2002:" eight (by decide) (by decide) (by decide))
    | nat64 high low inner => exact absurd accepted (refused_nat64 high low)

abbrev Plain (c : Char) : Prop := c ∈ "0123456789abcdef.:".toList

theorem digitChar_plain {d : Nat} (digit : d < 16) : Plain (Nat.digitChar d) := by
  interval_cases d <;> decide

theorem toDigits_plain {b : Nat} (large : 1 < b) (small : b ≤ 16) (n : Nat) :
    ∀ c ∈ Nat.toDigits b n, Plain c := by
  induction n using Nat.strongRecOn with
  | ind n ih =>
    intro c listed
    rw [Nat.toDigits_eq_if large] at listed
    split at listed
    · rw [List.mem_singleton.mp listed]
      exact digitChar_plain (by omega)
    · rcases List.mem_append.mp listed with early | last
      · exact ih (n / b) (Nat.div_lt_self (by omega) large) c early
      · rw [List.mem_singleton.mp last]
        exact digitChar_plain (Nat.lt_of_lt_of_le (Nat.mod_lt n (by omega)) small)

theorem dotted_plain (a b c d : Nat) :
    ∀ x ∈ decimal a ++ '.' :: decimal b ++ '.' :: decimal c ++ '.' :: decimal d, Plain x := by
  have decimals (n : Nat) : ∀ x ∈ decimal n, Plain x := toDigits_plain (by decide) (by decide) n
  intro x listed
  simp only [List.mem_append, List.mem_cons] at listed
  rcases listed with ((first | rfl | second) | rfl | third) | rfl | fourth
  · exact decimals a x first
  · decide
  · exact decimals b x second
  · decide
  · exact decimals c x third
  · decide
  · exact decimals d x fourth

theorem groupTexts_plain (run : Nat × Nat) (mapped : Bool) (words : List Nat) (i : Nat) :
    ∀ x ∈ groupTexts run mapped i words, Plain x := by
  have hexes (n : Nat) : ∀ x ∈ hex n, Plain x := toDigits_plain (by decide) (by decide) n
  have colon : Plain ':' := by decide
  induction words generalizing i with
  | nil =>
    intro x listed
    unfold groupTexts at listed
    split at listed
    · rw [List.mem_singleton.mp listed]
      exact colon
    · cases listed
  | cons word rest ih =>
    intro x listed
    have after : ∀ x ∈ hex word ++ groupTexts run mapped (i + 1) rest, Plain x := by
      intro x listed
      rcases List.mem_append.mp listed with here | later
      · exact hexes word x here
      · exact ih (i + 1) x later
    unfold groupTexts at listed
    split at listed
    · rcases List.mem_append.mp listed with here | later
      · split at here
        · rw [List.mem_singleton.mp here]
          exact colon
        · cases here
      · exact ih (i + 1) x later
    · rcases List.mem_append.mp listed with here | later
      · split at here
        · cases here
        · rw [List.mem_singleton.mp here]
          exact colon
      · split at later
        · split at later
          · exact dotted_plain _ _ _ _ x later
          · exact after x later
        · exact after x later

theorem addressText_plain (address : Address) : ∀ x ∈ addressText address, Plain x := by
  cases address with
  | v4 ip => exact dotted_plain _ _ _ _
  | v6 ip => exact groupTexts_plain _ _ _ 0

theorem mentions_refusal {start part : String} (text : List Char) (plain : ∀ c ∈ text, Plain c)
    (before : start.toList.all (fun c => c.toLower ≠ 'm') = true) (inside : 'm' ∈ part.toList) :
    mentions (start ++ String.ofList text) part = false := by
  have letters : "0123456789abcdef.:".toList.all (fun c => c.toLower ≠ 'm') = true := by decide
  simp only [mentions, decide_eq_false_iff_not]
  intro mentioned
  obtain ⟨c, listed, lower⟩ := List.mem_map.mp (mentioned.subset inside)
  rw [String.toList_append, String.toList_ofList] at listed
  rcases List.mem_append.mp listed with early | late
  · exact of_decide_eq_true (List.all_eq_true.mp before c early) lower
  · exact of_decide_eq_true (List.all_eq_true.mp letters c (plain c late)) lower

theorem new_final {message : String} (timed : mentions message "timed out" = false)
    (out : mentions message "timeout" = false) :
    isLikelyTransientError (.new message) = false := by
  have code : decide ("".toUpper ∈ transientCodes) = false := by decide +kernel
  simp only [Thrown.new, isLikelyTransientError, code, timed, out]
  decide

theorem refusal_final {e : Thrown} (refused : assertPublicIp address = .error e) :
    isLikelyTransientError e = false := by
  have plain := addressText_plain address
  cases address with
  | v4 ip =>
    simp only [assertPublicIp] at refused
    split at refused
    · cases refused
      exact new_final (mentions_refusal _ plain (by decide) (by decide))
        (mentions_refusal _ plain (by decide) (by decide))
    · cases refused
  | v6 ip =>
    simp only [assertPublicIp] at refused
    split at refused
    · cases refused
      exact new_final (mentions_refusal _ plain (by decide) (by decide))
        (mentions_refusal _ plain (by decide) (by decide))
    · cases refused

end MastopodFederation.Guarantees.BlockedAddresses

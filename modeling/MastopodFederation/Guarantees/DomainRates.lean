import MastopodFederation.Source.DomainSlots

/-!
# The rate limit of a domain

Checks come in bursts: a key counts from its first check until it expires, and no check of the
next burst is within a window of the first check of this one. A window meets two bursts at most.
-/
namespace MastopodFederation.Guarantees.DomainRates
open Source.DomainSlots

def decisions (limit windowSeconds : Nat) : Option SlotKey → List Int → List (Int × Bool)
  | _, [] => []
  | key, nowMs :: later =>
    let result := checkDomainRateLimit nowMs key limit windowSeconds
    (nowMs, result.1) :: decisions limit windowSeconds (some result.2) later

def passedWithin (first last : Int) (decided : List (Int × Bool)) : Nat :=
  decided.countP fun d => d.2 && (first ≤ d.1 && d.1 ≤ last)

def burst (passed refused : List Int) : List (Int × Bool) :=
  passed.map (·, true) ++ refused.map (·, false)

structure Filled (quota : Nat) (passed refused : List Int) : Prop where
  within_quota : passed.length ≤ quota
  used_up : refused ≠ [] → passed.length = quota
  ordered : ∀ y ∈ passed, ∀ x ∈ refused, y ≤ x

inductive Bursts (limit : Nat) (window : Int) : Int → List (Int × Bool) → Prop where
  | nil (before : Int) : Bursts limit window before []
  | cons {before : Int} (start : Int) {passed refused : List Int} {rest : List (Int × Bool)}
      (later : before < start) (filled : Filled limit passed refused)
      (inside : ∀ x ∈ passed ++ refused, start ≤ x ∧ x ≤ start + window)
      (others : Bursts limit window (start + window) rest) :
      Bursts limit window before (burst passed refused ++ rest)

section Windows
variable {limit : Nat} {window before first last : Int} {passed refused : List Int}
  {decided rest : List (Int × Bool)}

theorem passedWithin_append :
    passedWithin first last (decided ++ rest) =
      passedWithin first last decided + passedWithin first last rest := List.countP_append

theorem passedWithin_burst_le (filled : Filled limit passed refused) :
    passedWithin first last (burst passed refused) ≤ limit := by
  have zero : passedWithin first last (refused.map (·, false)) = 0 := by
    simp [passedWithin, List.countP_eq_zero]
  rw [burst, passedWithin_append, zero]
  exact List.countP_le_length.trans ((List.length_map ..).trans_le filled.within_quota)

theorem passedWithin_eq_zero (outside : ∀ d ∈ decided, d.1 < first ∨ last < d.1) :
    passedWithin first last decided = 0 := by
  rw [passedWithin, List.countP_eq_zero]
  intro d listed
  have := outside d listed
  simp only [Bool.and_eq_true, decide_eq_true_eq]
  omega

theorem mem_burst {d : Int × Bool} : d ∈ burst passed refused ↔
    d.1 ∈ passed ∧ d.2 = true ∨ d.1 ∈ refused ∧ d.2 = false := by
  obtain ⟨x, allowed⟩ := d
  cases allowed <;> simp [burst]

theorem Bursts.after (bursts : Bursts limit window before decided) (long : 0 ≤ window) :
    ∀ d ∈ decided, before < d.1 := by
  induction bursts with
  | nil => nofun
  | cons start later filled inside others ih =>
    intro d listed
    rcases List.mem_append.mp listed with here | there
    · have member : d.1 ∈ _ ++ _ := List.mem_append.mpr
        ((mem_burst.mp here).imp And.left And.left)
      have := inside d.1 member
      omega
    · have := ih d there
      omega

theorem Bursts.first_window (bursts : Bursts limit window before decided) (long : 0 ≤ window)
    (early : first ≤ before) : passedWithin first (first + window) decided ≤ limit := by
  cases bursts with
  | nil => exact Nat.zero_le _
  | cons start later filled inside others =>
    have zero : passedWithin first (first + window) _ = 0 :=
      passedWithin_eq_zero fun d listed => .inr (by have := others.after long d listed; omega)
    rw [passedWithin_append, zero]
    exact passedWithin_burst_le filled

theorem Bursts.any_window (bursts : Bursts limit window before decided) (long : 0 ≤ window) :
    passedWithin first (first + window) decided ≤ 2 * limit := by
  induction bursts with
  | nil => exact Nat.zero_le _
  | cons start later filled inside others ih =>
    rw [passedWithin_append]
    rcases le_or_gt first (start + window) with meets | past
    · have here : passedWithin first (first + window) (burst _ _) ≤ limit :=
        passedWithin_burst_le filled
      have there := others.first_window long meets
      omega
    · have zero : passedWithin first (first + window) (burst _ _) = 0 :=
        passedWithin_eq_zero fun d listed => .inl (by
          have := inside d.1 (List.mem_append.mpr ((mem_burst.mp listed).imp And.left And.left))
          omega)
      omega

theorem Bursts.refusal (bursts : Bursts limit window before decided) {x : Int}
    (denied : (x, false) ∈ decided) : limit ≤ passedWithin (x - window) x decided := by
  induction bursts with
  | nil => cases denied
  | @cons _ start passed refused rest later filled inside others ih =>
    rw [passedWithin_append]
    rcases List.mem_append.mp denied with here | there
    · obtain ⟨-, impossible⟩ | ⟨listed, -⟩ := mem_burst.mp here
      · cases impossible
      have all : passedWithin (x - window) x (passed.map (·, true)) = passed.length := by
        rw [passedWithin, ← List.length_map (·, true), List.countP_eq_length]
        simp only [List.mem_map, forall_exists_index, and_imp, forall_apply_eq_imp_iff₂]
        intro y member
        have := inside y (List.mem_append_left _ member)
        have := inside x (List.mem_append_right _ listed)
        have := filled.ordered y member x listed
        simp only [Bool.and_eq_true, decide_eq_true_eq, true_and]
        omega
      have used := filled.used_up (List.ne_nil_of_mem listed)
      rw [burst, passedWithin_append, all]
      omega
    · have := ih there
      omega

end Windows

section Checks
variable {limit windowSeconds : Nat} {nowMs : Int} {key : Option SlotKey} {times : List Int}

theorem check_counting {value expiry : Int} (counting : 1 ≤ value) (alive : nowMs ≤ expiry) :
    checkDomainRateLimit nowMs (some ⟨value, some expiry⟩) limit windowSeconds =
      (decide (value + 1 ≤ limit), ⟨value + 1, some expiry⟩) := by
  have incremented : incrBy nowMs (some ⟨value, some expiry⟩) 1 = ⟨value + 1, some expiry⟩ := by
    simp [incrBy, readKey, Option.filter, alive]
  rw [checkDomainRateLimit, incremented]
  simp [show value + 1 ≠ 1 by omega]

theorem check_first (absent : readKey nowMs key = none) :
    checkDomainRateLimit nowMs key limit windowSeconds =
      (decide ((1 : Int) ≤ limit), ⟨1, some (nowMs + windowSeconds * 1000)⟩) := by
  simp [checkDomainRateLimit, incrBy, absent]

def Counting (limit windowSeconds : Nat) (value expiry : Int) (times : List Int) : Prop :=
  ∃ passed refused rest,
    decisions limit windowSeconds (some ⟨value, some expiry⟩) times = burst passed refused ++ rest ∧
    Filled (limit - value).toNat passed refused ∧
    (∀ x ∈ passed ++ refused, x ∈ times ∧ x ≤ expiry) ∧
    Bursts limit (windowSeconds * 1000) expiry rest

theorem Filled.cons {passed refused : List Int} (value : Int)
    (filled : Filled (limit - (value + 1)).toNat passed refused)
    (earliest : ∀ x ∈ refused, nowMs ≤ x) :
    ∃ passed' refused',
      (nowMs, decide (value + 1 ≤ limit)) :: burst passed refused = burst passed' refused' ∧
      Filled (limit - value).toNat passed' refused' ∧
      ∀ x ∈ passed' ++ refused', x = nowMs ∨ x ∈ passed ++ refused := by
  have quota := filled.within_quota
  by_cases passes : value + 1 ≤ limit
  · refine ⟨nowMs :: passed, refused, by simp [burst, passes], ⟨?_, fun some => ?_, ?_⟩,
      fun x listed => by simpa [or_assoc] using listed⟩
    · rw [List.length_cons]
      omega
    · rw [List.length_cons, filled.used_up some]
      omega
    · exact List.forall_mem_cons.mpr ⟨earliest, filled.ordered⟩
  · obtain rfl : passed = [] := List.length_eq_zero_iff.mp (by omega)
    refine ⟨[], nowMs :: refused, by simp [burst, passes], ⟨by simp, fun _ => ?_, nofun⟩,
      fun x listed => by simpa using listed⟩
    rw [List.length_nil]
    omega

theorem bursts_opened {before : Int} (later : before < nowMs) (earliest : ∀ x ∈ times, nowMs ≤ x)
    (absent : readKey nowMs key = none)
    (counts : Counting limit windowSeconds 1 (nowMs + windowSeconds * 1000) times) :
    Bursts limit (windowSeconds * 1000) before
      (decisions limit windowSeconds key (nowMs :: times)) := by
  obtain ⟨passed, refused, rest, decided, filled, inside, others⟩ := counts
  obtain ⟨passed', refused', same, filled', members⟩ := Filled.cons 0 filled
    fun x listed => earliest x (inside x (List.mem_append_right _ listed)).1
  rw [decisions, check_first absent, decided, ← List.cons_append]
  rw [zero_add] at same
  rw [same]
  refine .cons nowMs later (by simpa using filled') (fun x listed => ?_) others
  rcases members x listed with rfl | member
  · omega
  · exact ⟨earliest x (inside x member).1, (inside x member).2⟩

theorem decisions_counting (limit windowSeconds : Nat) : ∀ {times : List Int} {value expiry : Int},
    1 ≤ value → times.Pairwise (· ≤ ·) → Counting limit windowSeconds value expiry times
  | [], _, _, _, _ => ⟨[], [], [], rfl, ⟨by simp, nofun, nofun⟩, nofun, .nil _⟩
  | nowMs :: later, value, expiry, counting, sorted => by
    obtain ⟨earliest, sorted⟩ := List.pairwise_cons.mp sorted
    rcases le_or_gt nowMs expiry with alive | expired
    · have counts : Counting limit windowSeconds (value + 1) expiry later :=
        decisions_counting limit windowSeconds (by omega) sorted
      obtain ⟨passed, refused, rest, decided, filled, inside, others⟩ := counts
      obtain ⟨passed', refused', same, filled', members⟩ := filled.cons value
        fun x listed => earliest x (inside x (List.mem_append_right _ listed)).1
      refine ⟨passed', refused', rest, ?_, filled', fun x listed => ?_, others⟩
      · rw [decisions, check_counting counting alive, decided, ← List.cons_append, same]
      · rcases members x listed with rfl | member
        · exact ⟨List.mem_cons_self, alive⟩
        · exact ⟨List.mem_cons_of_mem _ (inside x member).1, (inside x member).2⟩
    · have absent : readKey nowMs (some ⟨value, some expiry⟩) = none := by
        simp [readKey, Option.filter, expired]
      exact ⟨[], [], _, rfl, ⟨by simp, nofun, nofun⟩, nofun,
        bursts_opened expired earliest absent (decisions_counting _ _ le_rfl sorted)⟩

end Checks

/-- However many workers check a domain: no more than twice the limit passes within any window,
and a check is only refused after the limit has passed within the window before it. -/
theorem rate_limited (limit windowSeconds : Nat) {times : List Int}
    (sorted : times.Pairwise (· ≤ ·)) :
    let decided := decisions limit windowSeconds none times
    (∀ first, passedWithin first (first + windowSeconds * 1000) decided ≤ 2 * limit) ∧
      ∀ x, (x, false) ∈ decided → limit ≤ passedWithin (x - windowSeconds * 1000) x decided := by
  cases times with
  | nil => exact ⟨fun _ => Nat.zero_le _, nofun⟩
  | cons nowMs later =>
    obtain ⟨earliest, sorted⟩ := List.pairwise_cons.mp sorted
    have absent : readKey nowMs none = none := rfl
    have bursts : Bursts limit (windowSeconds * 1000) (nowMs - 1) _ :=
      bursts_opened (by omega) earliest absent (decisions_counting _ _ le_rfl sorted)
    exact ⟨fun first => bursts.any_window (by omega), fun x => bursts.refusal⟩

theorem rate_limited_burst :
    let decided := decisions 1 60 none [0, 60000, 60001]
    decided = [(0, true), (60000, false), (60001, true)] ∧
      passedWithin 1 60001 decided ≤ 2 ∧ 1 ≤ passedWithin 0 60000 decided := by
  have limited := rate_limited 1 60 (show [0, 60000, 60001].Pairwise (· ≤ ·) by decide)
  exact ⟨by decide, limited.1 1, limited.2 60000 (by decide)⟩

end MastopodFederation.Guarantees.DomainRates

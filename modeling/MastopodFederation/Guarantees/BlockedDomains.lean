import MastopodFederation.Source.DomainReputationStore

/-!
# Which hosts are blocked

A store holds the domains whose last accepted call added them. A host is blocked exactly as
the list says if its spelling passes the checks of a hostname; a trailing dot, or a label that
the pattern has no room for, lets a listed host through.
-/
namespace MastopodFederation.Guarantees.BlockedDomains
open Lib.Trimmed Source.SigningService Source.DomainReputationStore

structure Call where
  domain : Text
  subdomainMatch : Bool
  adds : Bool

def Call.apply (store : Domains) (call : Call) : Domains :=
  (if call.adds then addDomain store call.domain call.subdomainMatch
    else removeDomain store call.domain call.subdomainMatch).getD store

def run (calls : List Call) : Domains := calls.foldl Call.apply {}

def Call.names (subdomainMatch : Bool) (host : Text) (call : Call) : Bool :=
  call.subdomainMatch = subdomainMatch && sanitizeDomain call.domain = some host

def Listed (calls : List Call) (subdomainMatch : Bool) (host : Text) : Prop :=
  (calls.filter (Call.names subdomainMatch host)).getLast?.any Call.adds = true

def Domains.set (store : Domains) (subdomainMatch : Bool) : List Text :=
  if subdomainMatch then store.sub else store.exact

theorem mem_apply (store : Domains) (call : Call) (subdomainMatch : Bool) (host : Text) :
    host ∈ Domains.set (call.apply store) subdomainMatch ↔
      if call.names subdomainMatch host then call.adds = true
      else host ∈ Domains.set store subdomainMatch := by
  cases call with | mk domain sub adds =>
  cases named : sanitizeDomain domain with
  | none => cases adds <;> simp [Call.apply, Call.names, addDomain, removeDomain, named]
  | some d =>
    cases adds <;> cases sub <;> cases subdomainMatch <;>
      simp [Call.apply, Call.names, addDomain, removeDomain, named, Domains.change, Domains.set] <;>
      grind

theorem mem_run (calls : List Call) (subdomainMatch : Bool) (host : Text) :
    host ∈ Domains.set (run calls) subdomainMatch ↔ Listed calls subdomainMatch host := by
  induction calls using List.reverseRecOn with
  | nil => cases subdomainMatch <;> simp [run, Listed, Domains.set]
  | append_singleton calls call ih =>
    have step : run (calls ++ [call]) = call.apply (run calls) := by simp [run]
    rw [step, mem_apply, ih, Listed, Listed, List.filter_append]
    cases named : call.names subdomainMatch host <;> simp [named]

structure Hostname where
  labels : List Text
  trailingDot : Bool
  port : Option Text
  characters : ∀ label ∈ labels, ∀ c ∈ label,
    32 < c.toNat ∧ c.toNat < 127 ∧ c.isUpper = false ∧ c ≠ '.' ∧ c ≠ ':'
  ended : ∃ label, labels.getLast? = some label ∧ label ≠ []
  digits : ∀ number ∈ port, 0 < number.length ∧ number.length ≤ 5 ∧ number.all Char.isDigit

def Hostname.host (h : Hostname) : Text := ['.'].intercalate h.labels

def Hostname.dotted (h : Hostname) : Text := h.host ++ if h.trailingDot then ['.'] else []

def Hostname.text (h : Hostname) : Text :=
  h.dotted ++ match h.port with
    | none => []
    | some number => ':' :: number

def Blocked (calls : List Call) (h : Hostname) : Prop :=
  Listed calls false h.host ∨
    ∃ i, i + 2 ≤ h.labels.length ∧ Listed calls true (['.'].intercalate (h.labels.drop i))

variable (h : Hostname)

theorem splitOn_host : h.host.splitOn '.' = h.labels := by
  obtain ⟨label, last, -⟩ := h.ended
  apply List.splitOn_intercalate
  · intro part listed dot
    exact (h.characters part listed _ dot).2.2.2.1 rfl
  · rintro none
    simp [none] at last

theorem isHostname_dotted (dot : h.trailingDot = true) : isHostname h.dotted = false := by
  have split : h.dotted.splitOn '.' = h.labels ++ [[]] := by
    rw [Hostname.dotted, dot, if_pos rfl, List.splitOn_append_cons_self, splitOn_host,
      List.splitOn_nil]
  simp [isHostname, split, labelsMatch, isTopLabel]

theorem dotted_ne_nil : h.dotted ≠ [] := by
  obtain ⟨label, last, some⟩ := h.ended
  intro empty
  have split := splitOn_host h
  rw [List.append_eq_nil_iff.mp empty |>.1] at split
  simp only [List.splitOn_nil] at split
  rw [← split] at last
  exact some (Option.some.inj last).symm

variable {c : Char}

theorem mem_intercalate {labels : List Text} (inside : c ∈ ['.'].intercalate labels) :
    c = '.' ∨ ∃ label ∈ labels, c ∈ label := by
  induction labels with
  | nil => simp at inside
  | cons label rest ih =>
    cases rest with
    | nil => exact .inr ⟨label, by simp, by simpa using inside⟩
    | cons next rest =>
      rw [List.intercalate_cons_cons, List.append_assoc, List.mem_append, List.mem_append] at inside
      rcases inside with inside | dot | later
      · exact .inr ⟨label, by simp, inside⟩
      · exact .inl (List.mem_singleton.mp dot)
      · obtain dot | ⟨piece, listed, inside⟩ := ih later
        · exact .inl dot
        · exact .inr ⟨piece, List.mem_cons_of_mem _ listed, inside⟩

theorem mem_dotted (inside : c ∈ h.dotted) :
    32 < c.toNat ∧ c.toNat < 127 ∧ c.isUpper = false ∧ c ≠ ':' := by
  have dotOrLabel : c = '.' ∨ ∃ label ∈ h.labels, c ∈ label := by
    rcases List.mem_append.mp inside with inside | inside
    · exact mem_intercalate inside
    · split at inside <;> simp_all
  rcases dotOrLabel with rfl | ⟨label, listed, inside⟩
  · decide
  · obtain ⟨printed, ascii, lower, -, colon⟩ := h.characters label listed c inside
    exact ⟨printed, ascii, lower, colon⟩

theorem digit_bounds (digit : c.isDigit = true) :
    48 ≤ c.toNat ∧ c.toNat ≤ 57 ∧ c.isUpper = false ∧ c ≠ ':' := by
  have bounds : 48 ≤ c.toNat ∧ c.toNat ≤ 57 := by
    simpa [Char.isDigit, UInt32.le_iff_toNat_le] using digit
  refine ⟨bounds.1, bounds.2, ?_, ?_⟩
  · have upper : ¬ 65 ≤ c.toNat := by omega
    simp [Char.isUpper, UInt32.le_iff_toNat_le]
    exact fun letter => absurd letter upper
  · rintro rfl
    exact absurd bounds.2 (by decide)

theorem mem_text (inside : c ∈ h.text) : 32 < c.toNat ∧ c.toNat < 127 ∧ c.isUpper = false := by
  rcases List.mem_append.mp inside with inside | inside
  · obtain ⟨printed, ascii, lower, -⟩ := mem_dotted h inside
    exact ⟨printed, ascii, lower⟩
  · cases port : h.port with
    | none => simp [port] at inside
    | some number =>
      simp only [port, List.mem_cons] at inside
      rcases inside with rfl | inside
      · decide
      · obtain ⟨low, high, upper, -⟩ :=
          digit_bounds (List.all_eq_true.mp (h.digits number port).2.2 c inside)
        exact ⟨by omega, by omega, upper⟩

theorem stripPort_text : stripPort h.text = h.dotted := by
  have colonless : ∀ c ∈ h.dotted, (c != ':') = true := fun c inside => by
    simpa using (mem_dotted h inside).2.2.2
  unfold stripPort Hostname.text
  cases port : h.port with
  | none =>
    have all : h.dotted.rdropWhile (· ≠ ':') = [] := by
      rw [List.rdropWhile_eq_nil_iff]
      simpa using colonless
    simp only [List.append_nil, all]
    rw [if_neg (by simp)]
  | some number =>
    obtain ⟨some, few, digits⟩ := h.digits number port
    have plain : ∀ c ∈ number.reverse, decide (c ≠ ':') = true := fun c inside => by
      have digit := List.all_eq_true.mp digits c (List.mem_reverse.mp inside)
      simpa using (digit_bounds digit).2.2.2
    have reversed : (h.dotted ++ ':' :: number).reverse
        = number.reverse ++ ':' :: h.dotted.reverse := by simp
    have after : (h.dotted ++ ':' :: number).rtakeWhile (· ≠ ':') = number := by
      rw [List.rtakeWhile, reversed, List.takeWhile_append_of_pos plain]
      simp
    have before : (h.dotted ++ ':' :: number).rdropWhile (· ≠ ':') = h.dotted ++ [':'] := by
      rw [List.rdropWhile, reversed, List.dropWhile_append_of_pos plain]
      simp
    have nonempty : 0 < h.dotted.length := List.length_pos_iff.mpr (dotted_ne_nil h)
    simp only [after, before]
    rw [if_pos ⟨by simpa using nonempty, some, few, digits⟩, List.dropLast_concat]

theorem sanitizeDomain_text : sanitizeDomain h.text =
    if h.trailingDot = false ∧ isHostname h.host then some h.host else none := by
  have lowered : h.text.map toLowerCase = h.text := by
    refine (List.map_congr_left fun c inside => ?_).trans (List.map_id _)
    obtain ⟨-, ascii, lower⟩ := mem_text h inside
    have kelvin : c ≠ '\u212A' := by rintro rfl; exact absurd ascii (by decide)
    rw [toLowerCase, if_neg kelvin, Char.toLower]
    split
    · next upper =>
      simp only [Char.isUpper, decide_eq_false_iff_not] at lower
      exact absurd upper lower
    · rfl
  have kept : trimmed (· ∈ whitespace) h.text = h.text := by
    apply trimmed_of_forall
    intro c inside
    obtain ⟨printed, ascii, -⟩ := mem_text h inside
    have far : ∀ blank ∈ whitespace, blank.toNat ≤ 32 ∨ 127 ≤ blank.toNat := by
      simp [whitespace]
    rw [decide_eq_false_iff_not]
    intro blank
    have := far c blank
    omega
  have full : h.text ≠ [] := by simp [Hostname.text, dotted_ne_nil]
  rw [sanitizeDomain, lowered, kept, stripPort_text]
  cases dot : h.trailingDot with
  | true => simp [isHostname_dotted h dot]
  | false =>
    have plain : h.dotted = h.host := by simp [Hostname.dotted, dot]
    simp [plain, full]

theorem isDomainBlocked_text (store : Domains) :
    InMemory.isDomainBlocked store h.text = true ↔
      (h.trailingDot = false ∧ isHostname h.host) ∧
        (h.host ∈ store.exact ∨
          ∃ i, i + 2 ≤ h.labels.length ∧ ['.'].intercalate (h.labels.drop i) ∈ store.sub) := by
  rw [InMemory.isDomainBlocked, sanitizeDomain_text]
  split
  · next refused => simp_all
  · next accepted =>
    split at accepted
    · next checks =>
      cases accepted
      simp [checks, subdomainCandidates, splitOn_host, Nat.lt_sub_iff_add_lt, Nat.succ_le_iff]
    · cases accepted

theorem stores_agree (store : Domains) (domain : Text) :
    Redis.isDomainBlocked store domain = InMemory.isDomainBlocked store domain := by
  unfold Redis.isDomainBlocked InMemory.isDomainBlocked
  cases sanitizeDomain domain <;> simp [sismember, Function.comp_def]

/-- In both stores a host is blocked as listed exactly when a listed host passes the checks. -/
theorem blocked_iff (calls : List Call) :
    Redis.isDomainBlocked (run calls) h.text = InMemory.isDomainBlocked (run calls) h.text ∧
    ((InMemory.isDomainBlocked (run calls) h.text = true ↔ Blocked calls h) ↔
      (Blocked calls h → h.trailingDot = false ∧ isHostname h.host)) := by
  refine ⟨stores_agree _ _, ?_⟩
  have listed : Blocked calls h ↔ h.host ∈ (run calls).exact ∨
      ∃ i, i + 2 ≤ h.labels.length ∧ ['.'].intercalate (h.labels.drop i) ∈ (run calls).sub := by
    unfold Blocked
    simp only [← mem_run]
    rfl
  rw [isDomainBlocked_text, listed]
  exact and_iff_right_iff_imp

def dottedHost : Hostname where
  labels := [['s', 'p', 'a', 'm'], ['e', 'x', 'a', 'm', 'p', 'l', 'e']]
  trailingDot := true
  port := none
  characters := by simp
  ended := ⟨_, rfl, by simp⟩
  digits := by simp

/-- `spam.example` is added with subdomain matching, and `spam.example.` is not blocked. -/
theorem trailing_dot_unblocked : ¬ ∀ (calls : List Call) (h : Hostname),
    InMemory.isDomainBlocked (run calls) h.text = true ↔ Blocked calls h := by
  intro claimed
  have blocked := (claimed [⟨dottedHost.host, true, true⟩] dottedHost).mpr
    (.inr ⟨0, by decide, by unfold Listed; decide +kernel⟩)
  exact absurd ((isDomainBlocked_text _ _).mp blocked).1.1 (by decide)

end MastopodFederation.Guarantees.BlockedDomains

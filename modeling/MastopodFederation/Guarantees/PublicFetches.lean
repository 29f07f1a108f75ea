import MastopodFederation.Guarantees.BlockedAddresses

/-!
# Which addresses the fetch worker contacts

The guard resolves a host name and inspects the answers; the client then resolves the name
again. As long as the client stays with the answers that the worker got last, every address
it contacts has been accepted by the guard, in redirects and in retries too, so none is
forbidden outside of the `Gap`.
-/
namespace MastopodFederation.Guarantees.PublicFetches
open Lib.Calls
open Source.SsrfGuard
open BlockedAddresses

/-- The last answers to each name, the addresses contacted, and those among them that are not
answers of the name's last resolution. -/
structure Watch where
  resolved : String → List Address
  contacted : List Address
  strayed : List Address

def Watch.start : Watch := ⟨fun _ => [], [], []⟩

def Watch.seen (s : Watch) (url : Url) : List Address :=
  match url.host with
  | .ipv4 ip => [.v4 ip]
  | _ => s.resolved (hostname url)

def watched (s : Watch) : (c : Call) → Reply c → Watch
  | .lookup name, reply =>
    match reply with
    | .ok answers => { s with resolved := fun other => if other = name then answers else s.resolved other }
    | .error _ => s
  | .fetch url, fetched =>
    { s with
      contacted := s.contacted ++ fetched.opened
      strayed := s.strayed ++ fetched.opened.filter (· ∉ s.seen url) }

def watch : Monitor Call Reply Watch where
  allows _ _ := True
  after := watched

def counting : Monitor Call Reply Nat where
  allows _ _ := True
  after count c _ := match c with
    | .fetch _ => count + 1
    | .lookup _ => count

def requests (events : List (Event Call Reply)) : Nat := counting.follow 0 events

def Passed (s : Watch) (url : Url) : Prop := ∀ address ∈ s.seen url, assertPublicIp address = .ok ()

def Sound (s : Watch) : Prop :=
  ∀ address ∈ s.contacted, address ∈ s.strayed ∨ assertPublicIp address = .ok ()

/-- What a check or a chain relies on: the URL to be fetched again, if there is one yet, stays
accepted. -/
def Held (first : Option Url) (s : Watch) : Prop := Sound s ∧ ∀ url ∈ first, Passed s url

def Settled (first : Option Url) (e : Thrown) (s : Watch) : Prop :=
  Sound s ∧ (isLikelyTransientError e = true → Held first s)

section Program
variable {env : Environment} {first : Option Url} {s : Watch}

theorem assertAllPublic_ends (answers : List Address) (s : Watch) :
    Meets watch (assertAllPublic answers)
      (Ends (fun e t => t = s ∧ isLikelyTransientError e = false)
        (fun _ t => t = s ∧ ∀ address ∈ answers, assertPublicIp address = .ok ())) s := by
  induction answers with
  | nil => exact ⟨rfl, nofun⟩
  | cons answer rest ih =>
    unfold assertAllPublic
    cases accepted : assertPublicIp answer with
    | error e => exact ⟨rfl, refusal_final accepted⟩
    | ok _ =>
      change Meets watch (assertAllPublic rest) _ s
      apply ih.imp
      intro t outcome ended
      cases outcome with
      | error e => exact ended
      | ok _ => exact ⟨ended.1, List.forall_mem_cons.mpr ⟨accepted, ended.2⟩⟩

theorem Held.settled {e : Thrown} (held : Held first s) : Settled first e s :=
  ⟨held.1, fun _ => held⟩

theorem passed_lookup {name : String} {answers : List Address} {url : Url} (passed : Passed s url)
    (accepted : ∀ address ∈ answers, assertPublicIp address = .ok ()) :
    Passed (watched s (.lookup name) (.ok answers)) url := by
  intro address seen
  cases host : url.host with
  | ipv4 ip =>
    apply passed address
    simpa only [Watch.seen, host] using seen
  | name text =>
    simp only [Watch.seen, host, watched] at seen
    split at seen
    · exact accepted address seen
    · apply passed address
      simpa only [Watch.seen, host] using seen
  | ipv6 ip =>
    simp only [Watch.seen, host, watched] at seen
    split at seen
    · exact accepted address seen
    · apply passed address
      simpa only [Watch.seen, host] using seen

theorem held_lookup {name : String} {answers : List Address} (held : Held first s)
    (accepted : ∀ address ∈ answers, assertPublicIp address = .ok ()) :
    Held first (watched s (.lookup name) (.ok answers)) :=
  ⟨held.1, fun url given => passed_lookup (held.2 url given) accepted⟩

theorem passed_resolved {answers : List Address} {url : Url} (named : ∀ ip, url.host ≠ .ipv4 ip)
    (accepted : ∀ address ∈ answers, assertPublicIp address = .ok ()) :
    Passed (watched s (.lookup (hostname url)) (.ok answers)) url := by
  intro address seen
  cases host : url.host with
  | ipv4 ip => exact absurd host (named ip)
  | name text =>
    simp only [Watch.seen, host, watched, if_true] at seen
    exact accepted address seen
  | ipv6 ip =>
    simp only [Watch.seen, host, watched, if_true] at seen
    exact accepted address seen

theorem resolved_ends {url : Url} (named : ∀ ip, url.host ≠ .ipv4 ip) (held : Held first s) :
    Meets watch (do
        let answers ← lookup (hostname url)
        if answers.isEmpty then throwing "Unable to resolve remote host"
        else do
          assertAllPublic answers
          pure url)
      (Ends (Settled first) (fun url t => Held first t ∧ Passed t url)) s := by
  rw [meets_bind]
  refine ⟨trivial, fun (reply : Except Thrown (List Address)) => ?_⟩
  cases reply with
  | error e => exact held.settled
  | ok answers =>
    rw [meets_done, then_ok]
    split
    · rename_i empty
      rw [List.isEmpty_iff.mp empty]
      have none_refused : ∀ address ∈ ([] : List Address), assertPublicIp address = .ok () := by simp
      exact (held_lookup held none_refused).settled
    · rw [meets_bind]
      apply (assertAllPublic_ends answers _).imp
      intro t outcome ended
      cases outcome with
      | error e =>
        obtain ⟨rfl, final⟩ := ended
        exact ⟨held.1, fun transient => absurd (final.symm.trans transient) nofun⟩
      | ok _ =>
        obtain ⟨rfl, accepted⟩ := ended
        exact ⟨held_lookup held accepted, passed_resolved named accepted⟩

theorem assertPublicHost_ends (url : Url) (held : Held first s) :
    Meets watch (assertPublicHost url)
      (Ends (Settled first) (fun url t => Held first t ∧ Passed t url)) s := by
  unfold assertPublicHost
  cases host : url.host with
  | ipv4 ip =>
    dsimp only
    rw [meets_bind]
    cases accepted : assertPublicIp (.v4 ip) with
    | error e => exact held.settled
    | ok _ =>
      refine ⟨held, fun address seen => ?_⟩
      simp only [Watch.seen, host, List.mem_singleton] at seen
      rw [seen]
      exact accepted
  | name text => exact resolved_ends (by simp [host]) held
  | ipv6 ip => exact resolved_ends (by simp [host]) held

theorem assertSafeRemoteUrl_ends (rawUrl : String) (held : Held first s) :
    Meets watch (assertSafeRemoteUrl env rawUrl)
      (Ends (Settled first) (fun url t => Held first t ∧ Passed t url)) s := by
  unfold assertSafeRemoteUrl
  cases env.parseUrl rawUrl with
  | none => exact held.settled
  | some url =>
    dsimp only
    split
    · exact held.settled
    split
    · exact held.settled
    split
    · exact held.settled
    split
    · exact held.settled
    · exact assertPublicHost_ends url held

theorem held_fetch {url : Url} {fetched : Fetched} (held : Held first s) (passed : Passed s url) :
    Held first (watched s (.fetch url) fetched) := by
  refine ⟨?_, held.2⟩
  intro address contacted
  simp only [watched, List.mem_append, List.mem_filter] at contacted ⊢
  rcases contacted with before | opened
  · rcases held.1 address before with strayed | accepted
    · exact .inl (.inl strayed)
    · exact .inr accepted
  · by_cases seen : address ∈ s.seen url
    · exact .inr (passed address seen)
    · exact .inl (.inr ⟨opened, by simpa using seen⟩)

theorem fetch_ends {β : Type} {url : Url} {f : Response → Program β} {P : Thrown → Watch → Prop}
    {Q : β → Watch → Prop} (held : Held first s) (passed : Passed s url)
    (failed : ∀ e t, Held first t → P e t)
    (next : ∀ response t, Held first t → Meets watch (f response) (Ends P Q) t) :
    Meets watch (fetch url >>= f) (Ends P Q) s := by
  rw [meets_bind]
  refine ⟨trivial, fun (fetched : Fetched) => ?_⟩
  have kept : Held first (watched s (.fetch url) fetched) := held_fetch held passed
  change Then watch f (Ends P Q) (watched s (.fetch url) fetched) fetched.response
  cases fetched.response with
  | error e => exact failed e _ kept
  | ok response => exact next response _ kept

theorem located_ends {β : Type} {f : String → Program β} {Q : β → Watch → Prop}
    (response : Response) (held : Held first s)
    (next : ∀ location, Meets watch (f location) (Ends (Settled first) Q) s) :
    Meets watch (locationOf response >>= f) (Ends (Settled first) Q) s := by
  rw [meets_bind]
  unfold locationOf
  split
  · exact held.settled
  · exact held.settled
  · exact next _

theorem nextUrl_ends (url : Url) (location : String) (held : Held first s) :
    Meets watch (nextUrl env url location)
      (Ends (Settled first) (fun url t => Held first t ∧ Passed t url)) s := by
  unfold nextUrl
  cases env.resolveUrl location url with
  | none => exact held.settled
  | some next =>
    dsimp only
    split
    · exact held.settled
    · exact assertSafeRemoteUrl_ends next.href held

theorem fetchRedirects_ends (redirects : Nat) (url : Url) (held : Held first s)
    (passed : Passed s url) :
    Meets watch (fetchRedirects env redirects url) (Ends (Settled first) (fun _ t => Held first t)) s := by
  induction redirects generalizing url s with
  | zero =>
    unfold fetchRedirects
    refine fetch_ends held passed (fun _ _ held => held.settled) fun response t held => ?_
    split
    · exact located_ends response held fun _ => held.settled
    · exact held
  | succ redirects ih =>
    unfold fetchRedirects
    refine fetch_ends held passed (fun _ _ held => held.settled) fun response t held => ?_
    split
    · apply located_ends response held
      intro location
      apply ends_bind (nextUrl_ends url location held)
      rintro next u ⟨held, passed⟩
      exact ih next held passed
    · exact held

theorem fetchOnce_ends (url : Url) (held : Held (some url) s) :
    Meets watch (fetchOnce env url) (Ends (Settled (some url)) (fun _ t => Held (some url) t)) s := by
  unfold fetchOnce
  apply ends_bind (fetchRedirects_ends maxRedirects url held (held.2 url rfl))
  intro response t held
  split
  · exact held.settled
  · exact held

theorem retryAsync_ends {α : Type} {operation : Program α}
    (attempt : ∀ s, Held first s →
      Meets watch operation (Ends (Settled first) (fun _ t => Held first t)) s)
    (retries : Nat) (s : Watch) (held : Held first s) :
    Meets watch (retryAsync operation retries)
      (Ends (Settled first) (fun _ t => Held first t)) s := by
  induction retries generalizing s with
  | zero => exact attempt s held
  | succ retries ih =>
    unfold retryAsync
    rw [meets_rescue]
    apply (attempt s held).imp
    intro t outcome ended
    cases outcome with
    | ok a => exact ended
    | error e =>
      rw [rescued_error]
      split
      · rename_i transient
        exact ih t (ended.2 transient)
      · exact ended

theorem fetchUntrusted_sound (sourceUrl : String) :
    Meets watch (fetchUntrusted env sourceUrl) (fun t _ => Sound t) .start := by
  have held : Held none .start := ⟨nofun, nofun⟩
  have ended : Meets watch (fetchUntrusted env sourceUrl)
      (Ends (fun _ t => Sound t) (fun _ t => Sound t)) .start := by
    unfold fetchUntrusted
    rw [meets_bind]
    apply (assertSafeRemoteUrl_ends sourceUrl held).imp
    intro t outcome checked
    cases outcome with
    | error e => exact checked.1
    | ok url =>
      have first : Held (some url) t := by
        refine ⟨checked.1.1, fun other same => ?_⟩
        cases same
        exact checked.2
      apply (retryAsync_ends (fun _ => fetchOnce_ends url) fetchRetries t first).imp
      intro u outcome ended
      cases outcome with
      | error e => exact ended.1
      | ok response => exact ended.1
  apply ended.imp
  intro t outcome sound
  cases outcome with
  | error e => exact sound
  | ok response => exact sound

end Program

def IsLookup : Call → Prop
  | .lookup _ => True
  | .fetch _ => False

theorem only_assertAllPublic (answers : List Address) :
    Only (C := Call) (R := Reply) IsLookup (assertAllPublic answers) := by
  induction answers with
  | nil => exact only_pure _
  | cons answer rest ih => exact only_bind (only_done _) fun _ => ih

theorem only_assertPublicHost (url : Url) : Only IsLookup (assertPublicHost url) := by
  unfold assertPublicHost
  split
  · exact only_bind (only_done _) fun _ => only_pure _
  · refine only_bind (only_call trivial fun _ => only_done _) fun answers => ?_
    split
    · exact only_done _
    · exact only_bind (only_assertAllPublic answers) fun _ => only_pure _

theorem only_nextUrl (env : Environment) (url : Url) (location : String) :
    Only IsLookup (nextUrl env url location) := by
  unfold nextUrl
  split
  · exact only_done _
  split
  · exact only_done _
  unfold assertSafeRemoteUrl
  split
  · exact only_done _
  repeat
    split
    · exact only_done _
  exact only_assertPublicHost _

theorem silent_lookups {α : Type} {x : Program α} (only : Only IsLookup x) : Silent counting x :=
  only.silent fun _ c admitted => by
    cases c with
    | lookup name => exact ⟨trivial, fun _ => rfl⟩
    | fetch url => exact admitted.elim

theorem silent_locationOf (response : Response) : Silent counting (locationOf response) := by
  unfold locationOf
  split
  · exact fun _ => rfl
  · exact fun _ => rfl
  · exact fun _ => rfl

theorem fetch_counted {β : Type} {url : Url} {f : Response → Program β} {bound count : Nat}
    (within : count + 1 ≤ bound)
    (next : ∀ response, Meets counting (f response) (fun total _ => total ≤ bound) (count + 1)) :
    Meets counting (fetch url >>= f) (fun total _ => total ≤ bound) count := by
  rw [meets_bind]
  refine ⟨trivial, fun (fetched : Fetched) => ?_⟩
  change Then counting f _ (count + 1) fetched.response
  cases fetched.response with
  | error e => exact within
  | ok response => exact next response

theorem fetchRedirects_requests (env : Environment) (redirects : Nat) (url : Url) (count : Nat) :
    Meets counting (fetchRedirects env redirects url)
      (fun total _ => total ≤ count + redirects + 1) count := by
  induction redirects generalizing url count with
  | zero =>
    unfold fetchRedirects
    apply fetch_counted (Nat.le_refl _)
    intro response
    split
    · apply (silent_locationOf response).bind
      · exact fun _ => Nat.le_refl _
      · exact fun _ => Nat.le_refl _
    · exact Nat.le_refl _
  | succ redirects ih =>
    have within : count + 1 ≤ count + (redirects + 1) + 1 := by omega
    unfold fetchRedirects
    apply fetch_counted within
    intro response
    split
    · apply (silent_locationOf response).bind _ fun _ => within
      intro location
      apply (silent_lookups (only_nextUrl env url location)).bind _ fun _ => within
      intro next
      apply (ih next (count + 1)).imp
      intro total _ bounded
      omega
    · exact within

/-- In a run whose client connects only to addresses that the worker's last resolution of the
host answered with, the addresses contacted are forbidden exactly where they lie in the gap of
the guard; and a chain of redirects makes at most five requests. -/
theorem contacts_public_iff {env : Environment} {sourceUrl : String}
    {events : List (Event Call Reply)} {outcome : Except Thrown Response}
    (trace : Trace (fetchUntrusted env sourceUrl) events outcome)
    (stays : (watch.follow .start events).strayed = []) :
    ((∀ address ∈ (watch.follow .start events).contacted, ¬ Forbidden address) ↔
      ∀ address ∈ (watch.follow .start events).contacted, ¬ Gap address) ∧
    ∀ (url : Url) (chain : List (Event Call Reply)) (response : Except Thrown Response),
      Trace (fetchWithValidatedRedirects env url) chain response → requests chain ≤ 5 := by
  have sound : Sound (watch.follow .start events) := (fetchUntrusted_sound sourceUrl).sound trace
  refine ⟨⟨?_, ?_⟩, ?_⟩
  · exact fun allowed address contacted gap => allowed address contacted gap.forbidden
  · intro outside address contacted forbidden
    have accepted : assertPublicIp address = .ok () := by
      rcases sound address contacted with strayed | accepted
      · rw [stays] at strayed
        cases strayed
      · exact accepted
    exact outside address contacted (accepted_forbidden accepted forbidden)
  · intro url chain response ran
    exact (fetchRedirects_requests env maxRedirects url 0).sound ran

def page : Url := ⟨"https:", "", "", .name "media.example", "https://media.example/a.png"⟩

def onePage : Environment where
  parseUrl _ := some page
  resolveUrl _ _ := none

def answering (answers opened : List Address) : (c : Call) → Reply c
  | .lookup _ => .ok answers
  | .fetch _ => ⟨opened, .ok ⟨200, none⟩⟩

def runWith (answers opened : List Address) : List (Event Call Reply) :=
  ((fetchUntrusted onePage "https://media.example/a.png").run (answering answers opened)).1

def publicAddress : Address := .v4 ⟨93, 184, 216, 34⟩

def loopback : Address := .v4 ⟨127, 0, 0, 1⟩

def linkLocalAddress : Address := .v6 ⟨[0xfe81, 0, 0, 0, 0, 0, 0, 1], rfl⟩

def compatibleLoopback : Address := .v6 ⟨[0, 0, 0, 0, 0, 0, 0x7f00, 1], rfl⟩

theorem contacts_public_iff_page :
    (∀ address ∈ (watch.follow .start (runWith [publicAddress] [publicAddress])).contacted,
      ¬ Forbidden address) ∧ requests (runWith [publicAddress] [publicAddress]) = 1 := by
  have trace := trace_run (answering [publicAddress] [publicAddress])
    (fetchUntrusted onePage "https://media.example/a.png")
  refine ⟨(contacts_public_iff trace (by decide +kernel)).1.mpr ?_, by decide +kernel⟩
  have contacted : (watch.follow .start (runWith [publicAddress] [publicAddress])).contacted =
      [publicAddress] := by decide +kernel
  intro address listed gap
  change address ∈ (watch.follow .start (runWith [publicAddress] [publicAddress])).contacted at listed
  rw [contacted, List.mem_singleton] at listed
  rw [listed] at gap
  exact gap

/-- A name whose second resolution differs from the first, a link-local address outside of
`fe80::/16`, and the IPv4-compatible form of the loopback address. -/
theorem rebound_contacts_loopback :
    (∃ address ∈ (watch.follow .start (runWith [publicAddress] [loopback])).contacted,
      Forbidden address) ∧
    (∃ address ∈ (watch.follow .start (runWith [linkLocalAddress] [linkLocalAddress])).contacted,
      Forbidden address) ∧
    ∃ address ∈ (watch.follow .start (runWith [compatibleLoopback] [compatibleLoopback])).contacted,
      Forbidden address := by
  refine ⟨⟨loopback, by decide +kernel, .inl rfl⟩, ⟨linkLocalAddress, by decide +kernel, ?_⟩,
    ⟨compatibleLoopback, by decide +kernel, ?_⟩⟩
  · exact .linkLocal _ _ (by decide) (by decide)
  · exact .compatible _ _ (.inl rfl)

end MastopodFederation.Guarantees.PublicFetches

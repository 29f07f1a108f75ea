import MastopodFederation.Guarantees.AddressedRecipients
import MastopodFederation.Lib.TextLines

/-!
# Who gets a delivery target

The targets are those of the reached actors, one for each delivery URL, and the groups lose none
of them. So every wanted actor is served exactly when whoever is not reached shares a delivery
URL with somebody who is.
-/
namespace MastopodFederation.Guarantees.ServedRecipients
open Lib.LuaTable (Json)
open Source.SigningService (property)
open Source.RecipientResolution
open AddressedRecipients

section Targets
variable {env : Environment} {u url : String} {target : Target}

theorem parse_accepted {value : Option Json} (accepted : normalizeUrl env value = some url) :
    ∃ parsed, env.urls.parse url = some parsed ∧ parsed.hostname ≠ "" := by
  obtain ⟨text, parsed, -, read, rfl, secure | here⟩ := normalizeUrl_ok accepted
  · exact ⟨parsed, env.urls.reparse read, env.urls.named read secure⟩
  · refine ⟨parsed, env.urls.reparse read, fun empty => ?_⟩
    rw [empty] at here
    exact absurd here (by decide)

theorem targetOf_some (resolved : targetOf env u = some target) :
    target.recipientUri = u ∧ Delivers env u target.deliveryUrl ∧
      ∃ parsed, env.urls.parse target.deliveryUrl = some parsed ∧
        target.targetDomain = parsed.hostname.toLower := by
  unfold targetOf at resolved
  split at resolved
  · rename_i remote
    split at resolved
    · cases resolved
    rename_i actorDoc got
    split at resolved
    · cases resolved
    rename_i inboxUrl accepted
    dsimp only at resolved
    split at resolved
    · cases resolved
    · rename_i parsed read
      cases resolved
      exact ⟨rfl, ⟨remote, actorDoc, inboxUrl, got, accepted, rfl⟩, parsed, read, rfl⟩
  · cases resolved

theorem targetOf_delivers (delivers : Delivers env u url) :
    ∃ target, targetOf env u = some target ∧ target.deliveryUrl = url := by
  obtain ⟨remote, actorDoc, inboxUrl, got, accepted, same⟩ := delivers
  have readable : ∃ parsed, env.urls.parse url = some parsed := by
    rw [same]
    cases shared : normalizeUrl env (property (property actorDoc "endpoints") "sharedInbox") with
    | none =>
      obtain ⟨parsed, read, -⟩ := parse_accepted accepted
      exact ⟨parsed, read⟩
    | some sharedInboxUrl =>
      obtain ⟨parsed, read, -⟩ := parse_accepted shared
      exact ⟨parsed, read⟩
  obtain ⟨parsed, read⟩ := readable
  rw [same] at read
  refine ⟨⟨u, parsed.hostname.toLower, inboxUrl,
    normalizeUrl env (property (property actorDoc "endpoints") "sharedInbox")⟩, ?_, same.symm⟩
  simp only [targetOf, remote, got, accepted, read]

theorem toLower_ne_bar {c : Char} (plain : c ≠ '|') : c.toLower ≠ '|' := by
  unfold Char.toLower
  split
  · rename_i upper
    intro same
    have last : c.val.toNat ≤ 90 := UInt32.le_iff_toNat_le.mp upper.2
    have code : (c.val + ('a'.val - 'A'.val)).toNat = '|'.val.toNat :=
      congrArg (fun d : Char => d.val.toNat) same
    rw [UInt32.toNat_add, show ('a'.val - 'A'.val).toNat = 32 by decide,
      show '|'.val.toNat = 124 by decide] at code
    omega
  · exact plain

theorem targetDomain_plain (resolved : targetOf env u = some target) :
    '|' ∉ target.targetDomain.toList := by
  obtain ⟨-, -, parsed, read, domain⟩ := targetOf_some resolved
  rw [domain, String.toLower, String.toList_map]
  intro inside
  obtain ⟨c, listed, same⟩ := List.mem_map.mp inside
  exact toLower_ne_bar (fun bar => env.urls.plain read (bar ▸ listed)) same

theorem key_inj {other : Target} {v : String} (resolved : targetOf env u = some target)
    (resolved' : targetOf env v = some other) (same : target.key = other.key) :
    target.deliveryUrl = other.deliveryUrl := by
  have keys := congrArg String.toList same
  simp only [Target.key, String.toList_append, List.append_assoc] at keys
  have parts := Lib.TextLines.entry_inj (targetDomain_plain resolved) (targetDomain_plain resolved') keys
  exact String.toList_inj.mp parts.2

variable {targets : List Target}

theorem firstOfKey_subset {seen : List String} :
    ∀ target ∈ firstOfKey seen targets, target ∈ targets ∧ target.key ∉ seen := by
  induction targets generalizing seen with
  | nil => simp [firstOfKey]
  | cons first rest ih =>
    intro target listed
    unfold firstOfKey at listed
    split at listed
    · obtain ⟨among, fresh⟩ := ih target listed
      exact ⟨List.mem_cons_of_mem _ among, fresh⟩
    · rename_i fresh
      rcases List.mem_cons.mp listed with rfl | later
      · exact ⟨List.mem_cons_self, fresh⟩
      · obtain ⟨among, other⟩ := ih target later
        exact ⟨List.mem_cons_of_mem _ among, fun old => other (List.mem_cons_of_mem _ old)⟩

theorem firstOfKey_keeps {seen : List String} {target : Target}
    (listed : target ∈ targets) (fresh : target.key ∉ seen) :
    ∃ kept ∈ firstOfKey seen targets, kept.key = target.key := by
  induction targets generalizing seen with
  | nil => cases listed
  | cons first rest ih =>
    unfold firstOfKey
    split
    · rename_i old
      rcases List.mem_cons.mp listed with rfl | later
      · exact absurd old fresh
      · exact ih later fresh
    · by_cases same : target.key = first.key
      · exact ⟨first, List.mem_cons_self, same.symm⟩
      · rcases List.mem_cons.mp listed with rfl | later
        · exact absurd rfl same
        · obtain ⟨kept, among, key⟩ := ih later (by simp [same, fresh] : target.key ∉ first.key :: seen)
          exact ⟨kept, List.mem_cons_of_mem _ among, key⟩

theorem firstOfKey_nodup (seen : List String) (targets : List Target) :
    ((firstOfKey seen targets).map Target.key).Nodup := by
  induction targets generalizing seen with
  | nil => simp [firstOfKey]
  | cons first rest ih =>
    unfold firstOfKey
    split
    · exact ih seen
    · rw [List.map_cons, List.nodup_cons]
      refine ⟨fun listed => ?_, ih _⟩
      obtain ⟨target, among, same⟩ := List.mem_map.mp listed
      exact (firstOfKey_subset target among).2 (same ▸ List.mem_cons_self)

variable {activity : Json} {actorUri : String} {actor : Option Json}

theorem mem_resolved (listed : target ∈ resolveDeliveryTargets env activity actorUri actor) :
    ∃ u ∈ actorRecipients env activity actorUri actor, targetOf env u = some target := by
  rw [resolveDeliveryTargets, deduplicateTargets, List.mem_mergeSort] at listed
  exact List.mem_filterMap.mp (firstOfKey_subset target listed).1

theorem mem_deliveryUrls :
    url ∈ (resolveDeliveryTargets env activity actorUri actor).map Target.deliveryUrl ↔
      ∃ u ∈ actorRecipients env activity actorUri actor, Delivers env u url := by
  constructor
  · intro listed
    obtain ⟨target, among, rfl⟩ := List.mem_map.mp listed
    obtain ⟨u, resolved, made⟩ := mem_resolved among
    exact ⟨u, resolved, (targetOf_some made).2.1⟩
  · rintro ⟨u, resolved, delivers⟩
    obtain ⟨target, made, rfl⟩ := targetOf_delivers delivers
    have among := List.mem_filterMap.mpr ⟨u, resolved, made⟩
    obtain ⟨kept, listed, same⟩ := firstOfKey_keeps among (List.not_mem_nil)
    obtain ⟨v, -, made'⟩ := List.mem_filterMap.mp (firstOfKey_subset kept listed).1
    rw [← key_inj made' made same]
    apply List.mem_map_of_mem
    rw [resolveDeliveryTargets, deduplicateTargets, List.mem_mergeSort]
    exact listed

theorem deliveryUrls_nodup :
    ((resolveDeliveryTargets env activity actorUri actor).map Target.deliveryUrl).Nodup := by
  have sorted := (List.mergeSort_perm (firstOfKey []
    ((actorRecipients env activity actorUri actor).filterMap (targetOf env)))
    fun left right => env.localeLe left.key right.key).map Target.deliveryUrl
  rw [resolveDeliveryTargets, deduplicateTargets, sorted.nodup_iff]
  have distinct := firstOfKey_nodup []
    ((actorRecipients env activity actorUri actor).filterMap (targetOf env))
  rw [List.Nodup, List.pairwise_map] at distinct ⊢
  apply distinct.imp_of_mem
  intro left right listed listed' keys urls
  obtain ⟨u, -, made⟩ := List.mem_filterMap.mp (firstOfKey_subset left listed).1
  obtain ⟨v, -, made'⟩ := List.mem_filterMap.mp (firstOfKey_subset right listed').1
  obtain ⟨-, -, parsed, read, domain⟩ := targetOf_some made
  obtain ⟨-, -, parsed', read', domain'⟩ := targetOf_some made'
  rw [urls, read'] at read
  cases read
  exact keys (by rw [Target.key, Target.key, urls, domain, domain'])

end Targets

section Groups
variable {env : Environment} {actorUri : String} {url : String} {target : Target}

theorem mem_include {group : Group} :
    url ∈ (group.include target).recipients ↔ url ∈ group.recipients ∨ url = target.deliveryUrl :=
  mem_add

def InGroup (url : String) (groups : List Group) : Prop := ∃ group ∈ groups, url ∈ group.recipients

theorem addToGroup_inGroup {groups : List Group} :
    InGroup target.deliveryUrl (addToGroup actorUri target groups) ∧
      ∀ url, InGroup url groups → InGroup url (addToGroup actorUri target groups) := by
  induction groups with
  | nil =>
    refine ⟨⟨_, List.mem_cons_self, ?_⟩, fun url held => ?_⟩
    · exact mem_include.mpr (.inr rfl)
    · obtain ⟨group, listed, -⟩ := held
      cases listed
  | cons first rest ih =>
    unfold addToGroup
    split
    · refine ⟨⟨_, List.mem_cons_self, mem_include.mpr (.inr rfl)⟩, ?_⟩
      rintro url ⟨group, listed, held⟩
      rcases List.mem_cons.mp listed with rfl | later
      · exact ⟨_, List.mem_cons_self, mem_include.mpr (.inl held)⟩
      · exact ⟨group, List.mem_cons_of_mem _ later, held⟩
    · obtain ⟨⟨own, among, added⟩, kept⟩ := ih
      refine ⟨⟨own, List.mem_cons_of_mem _ among, added⟩, ?_⟩
      rintro url ⟨group, listed, held⟩
      rcases List.mem_cons.mp listed with rfl | later
      · exact ⟨group, List.mem_cons_self, held⟩
      · obtain ⟨other, among', held'⟩ := kept url ⟨group, later, held⟩
        exact ⟨other, List.mem_cons_of_mem _ among', held'⟩

theorem grouped_inGroup (actorUri : String) (targets : List Target) (groups : List Group) :
    (∀ url, InGroup url groups → InGroup url (targets.foldl
      (fun groups target =>
        if target.targetDomain = "" then groups else addToGroup actorUri target groups) groups)) ∧
      ∀ target ∈ targets, target.targetDomain ≠ "" →
        InGroup target.deliveryUrl (targets.foldl
          (fun groups target =>
            if target.targetDomain = "" then groups else addToGroup actorUri target groups)
          groups) := by
  induction targets generalizing groups with
  | nil => exact ⟨fun _ held => held, nofun⟩
  | cons first rest ih =>
    rw [List.foldl_cons]
    obtain ⟨kept, added⟩ := ih
      (if first.targetDomain = "" then groups else addToGroup actorUri first groups)
    refine ⟨fun url held => kept url ?_, fun target listed domain => ?_⟩
    · split
      · exact held
      · exact addToGroup_inGroup.2 url held
    · rcases List.mem_cons.mp listed with rfl | later
      · apply kept
        rw [if_neg domain]
        exact addToGroup_inGroup.1
      · exact added target later domain

theorem mem_groupTargetsByDomain {targets : List Target}
    (listed : target ∈ targets) (domain : target.targetDomain ≠ "") :
    ∃ group ∈ groupTargetsByDomain env actorUri targets, target.deliveryUrl ∈ group.recipients := by
  obtain ⟨group, among, held⟩ := (grouped_inGroup actorUri targets []).2 target listed domain
  refine ⟨group.finish, ?_, ?_⟩
  · rw [groupTargetsByDomain, List.mem_mergeSort]
    exact List.mem_map_of_mem among
  · rw [Group.finish, List.mem_mergeSort]
    exact held

end Groups

def Rearranged (activity other : Json) : Prop :=
  (addressed other).Perm (addressed activity) ∧ tagsOf other = tagsOf activity

section Resolution
variable (env : Environment) (actorUri : String) (actor : Option Json) (activity : Json)

def deliveryUrls : List String :=
  (resolveDeliveryTargets env activity actorUri actor).map Target.deliveryUrl

/-- Every wanted actor with an accepted inbox has exactly one target with its delivery URL, nobody
else has one, the order of the fields does not matter, and the groups have every URL. -/
structure Served : Prop where
  target : ∀ u url, Wanted env actorUri actor activity u → Delivers env u url →
    url ∈ deliveryUrls env actorUri actor activity
  unique : (deliveryUrls env actorUri actor activity).Nodup
  only : ∀ target ∈ resolveDeliveryTargets env activity actorUri actor,
    ∃ u, Wanted env actorUri actor activity u ∧ Delivers env u target.deliveryUrl ∧
      target.recipientUri = u
  order : ∀ other, Rearranged activity other → ∀ url,
    url ∈ deliveryUrls env actorUri actor other ↔ url ∈ deliveryUrls env actorUri actor activity
  grouped : ∀ target ∈ resolveDeliveryTargets env activity actorUri actor,
    ∃ group ∈ groupTargetsByDomain env actorUri (resolveDeliveryTargets env activity actorUri actor),
      target.deliveryUrl ∈ group.recipients

def Covered : Prop :=
  ∀ u url, Wanted env actorUri actor activity u → Delivers env u url →
    ∃ v, Reached env actorUri actor activity v ∧ Delivers env v url

end Resolution

section Result
variable {env : Environment} {actorUri : String} {actor : Option Json} {activity : Json}

theorem reached_rearranged {other : Json} (same : Rearranged activity other) {u : String}
    (reached : Reached env actorUri actor activity u) : Reached env actorUri actor other u := by
  have by_text : ∀ v, AddressedByText env activity v → AddressedByText env other v := by
    rintro v ⟨text, listed, unlisted, accepted⟩
    exact ⟨text, same.1.mem_iff.mpr listed, unlisted, accepted⟩
  cases reached with
  | addressed given outside => exact .addressed (by_text u given) outside
  | mentioned given outside => exact .mentioned (by rw [same.2]; exact given) outside
  | follower collection given =>
    obtain ⟨f, listed, addressed⟩ := collection
    exact .follower ⟨f, listed, by_text f addressed⟩ given

theorem Rearranged.symm {other : Json} (same : Rearranged activity other) :
    Rearranged other activity := ⟨same.1.symm, same.2.symm⟩

theorem mem_deliveryUrls_iff (few : FewMembers env actorUri actor) {url : String} :
    url ∈ deliveryUrls env actorUri actor activity ↔
      ∃ u, Reached env actorUri actor activity u ∧ Delivers env u url := by
  rw [deliveryUrls, mem_deliveryUrls]
  simp only [mem_actorRecipients_iff few]

theorem target_domain {target : Target} {u : String} (made : targetOf env u = some target) :
    target.targetDomain ≠ "" := by
  obtain ⟨-, ⟨-, actorDoc, inboxUrl, -, accepted, same⟩, parsed, read, domain⟩ := targetOf_some made
  have hosted : ∃ other, env.urls.parse target.deliveryUrl = some other ∧ other.hostname ≠ "" := by
    rw [same]
    cases shared : normalizeUrl env (property (property actorDoc "endpoints") "sharedInbox") with
    | none => exact parse_accepted accepted
    | some sharedInboxUrl => exact parse_accepted shared
  obtain ⟨other, read', hosted⟩ := hosted
  rw [read] at read'
  cases read'
  rw [domain, String.toLower, Ne, String.map_eq_empty]
  exact hosted

/-- Everybody is served exactly when whoever is not reached shares a delivery URL with somebody who
is. -/
theorem served_iff (few : FewMembers env actorUri actor) :
    Served env actorUri actor activity ↔ Covered env actorUri actor activity := by
  constructor
  · intro served u url wanted delivers
    exact (mem_deliveryUrls_iff few).mp (served.target u url wanted delivers)
  · intro covered
    refine ⟨?_, deliveryUrls_nodup, ?_, ?_, ?_⟩
    · intro u url wanted delivers
      exact (mem_deliveryUrls_iff few).mpr (covered u url wanted delivers)
    · intro target listed
      obtain ⟨u, resolved, made⟩ := mem_resolved listed
      obtain ⟨recipient, delivers, -⟩ := targetOf_some made
      exact ⟨u, ((mem_actorRecipients_iff few).mp resolved).wanted, delivers, recipient⟩
    · intro other same url
      rw [mem_deliveryUrls_iff few, mem_deliveryUrls_iff few]
      exact exists_congr fun u => and_congr_left fun _ =>
        ⟨reached_rearranged same.symm, reached_rearranged same⟩
    · intro target listed
      obtain ⟨u, -, made⟩ := mem_resolved listed
      exact mem_groupTargetsByDomain listed (target_domain made)

end Result

def secureUrls : Parser where
  parse text :=
    let host := (text.toList.drop 8).takeWhile (· ≠ '/')
    if "https://".toList.isPrefixOf text.toList ∧ host ≠ [] ∧ '|' ∉ text.toList then
      some ⟨"https:", String.ofList host, text⟩
    else none
  reparse := by
    intro text url read
    dsimp only at read
    split at read
    · cases read
      rename_i proper
      exact if_pos proper
    · cases read
  plain := by
    intro text url read
    dsimp only at read
    split at read
    · cases read
      rename_i proper
      rw [String.toList_ofList]
      exact fun bar => proper.2.2 (List.drop_subset _ _ ((List.takeWhile_prefix _).subset bar))
    · cases read
  named := by
    intro text url read secure empty
    dsimp only at read
    split at read
    · cases read
      rename_i proper
      exact proper.2.1 (String.ofList_injective (empty.trans String.ofList_nil.symm))
    · cases read

def alice : String := "https://pod.example/alice"

def bob : String := "https://other.example/bob"

/-- The collection has these entries, its second page lists the follower; every actor but the sender
is remote and has an inbox. -/
def sender (collection : List (String × Json)) : Environment where
  urls := secureUrls
  fetchDocument url :=
    if url = alice ++ "/followers" then some (.obj collection)
    else if url = alice ++ "/followers/2" then some (.obj [("orderedItems", .arr [.str bob])])
    else none
  isLocal u := some (u = alice)
  actorGet u := some (.obj [("inbox", .str (u ++ "/inbox"))])
  localeLe left right := left ≤ right

def toFollowers : Json := .obj [("to", .str (alice ++ "/followers"))]

def toObject : Json := .obj [("to", .arr [.obj [("id", .str bob)]])]

def plainCollection : List (String × Json) := [("orderedItems", .arr [.str bob])]

def embeddedCollection : List (String × Json) :=
  [("first", .obj [("orderedItems", .arr [.str alice]), ("next", .str (alice ++ "/followers/2"))])]

def Secure (text : String) : Prop :=
  trim text ≠ "" ∧
    (secureUrls.parse (trim text)).map (fun url => (url.protocol, url.href)) = some ("https:", text)

variable {text : String}

theorem secure_of_chars {chars : List Char} (written : text.toList = chars)
    (kept : Lib.Trimmed.trimmed (· ∈ Source.SigningService.whitespace) chars = chars)
    (named : "https://".toList.isPrefixOf chars = true ∧
      (chars.drop 8).takeWhile (· ≠ '/') ≠ [] ∧ '|' ∉ chars) : Secure text := by
  have same : trim text = text := by
    rw [trim, written, kept, ← written, String.ofList_toList]
  have filled : text ≠ "" := by
    rintro rfl
    subst written
    exact named.2.1 rfl
  subst written
  have read : secureUrls.parse text = some ⟨"https:", _, text⟩ := if_pos named
  exact ⟨same.symm ▸ filled, by rw [same, read]; rfl⟩

theorem secure_followers : Secure (alice ++ "/followers") :=
  secure_of_chars (String.toList_append.trans (congrArg₂ _ String.toList_ofList String.toList_ofList))
    rfl ⟨by simp, by simp, by simp⟩

theorem secure_page : Secure (alice ++ "/followers/2") :=
  secure_of_chars (String.toList_append.trans (congrArg₂ _ String.toList_ofList String.toList_ofList))
    rfl ⟨by simp, by simp, by simp⟩

theorem secure_bob : Secure bob :=
  secure_of_chars String.toList_ofList rfl ⟨by simp, by simp, by simp⟩

theorem secure_inbox : Secure (bob ++ "/inbox") :=
  secure_of_chars (String.toList_append.trans (congrArg₂ _ String.toList_ofList String.toList_ofList))
    rfl ⟨by simp, by simp, by simp⟩

theorem Secure.accepted (secure : Secure text) (collection : List (String × Json)) :
    normalizeUrl (sender collection) (some (.str text)) = some text := by
  obtain ⟨filled, read⟩ := secure
  obtain ⟨url, parsed, same⟩ := Option.map_eq_some_iff.mp read
  obtain ⟨protocol, href⟩ := Prod.mk.inj same
  simp only [normalizeUrl, filled, sender, parsed, protocol, href, if_true, if_false]

theorem Secure.canonical (secure : Secure text) (collection : List (String × Json)) :
    AddressedRecipients.canonical (sender collection) text = some text :=
  normalizeUrl_canonical (secure.accepted collection)

variable (collection : List (String × Json))

theorem sender_collection :
    buildFollowersCollectionUris (sender collection) alice none = [alice ++ "/followers"] := by
  have same : withoutSlash alice = alice := by decide +kernel
  unfold buildFollowersCollectionUris
  rw [same, secure_followers.accepted]
  rfl

theorem sender_fetch :
    (sender collection).fetchDocument (alice ++ "/followers") = some (.obj collection) := by
  simp only [sender, if_true]

theorem plain_few : FewMembers (sender plainCollection) alice none := by
  refine ⟨[bob], by decide, ?_⟩
  rintro u ⟨start, collection, payload, fetched, item, listed, text, named, stands, -⟩
  rw [sender_collection, List.mem_singleton] at collection
  rw [collection, sender_fetch] at fetched
  cases fetched
  cases listed with
  | own listed =>
    rw [show directItems plainCollection = [.str bob] from rfl, List.mem_singleton] at listed
    rw [listed] at named
    cases named
    rw [secure_bob.canonical] at stands
    cases stands
    exact List.mem_singleton_self bob
  | embedded first inner => simp [property, plainCollection, List.lookup] at first
  | linked known given leads fetched inner =>
    simp only [List.mem_cons, List.not_mem_nil, or_false] at known
    rcases known with rfl | rfl <;> simp [property, plainCollection, List.lookup] at given

theorem served_iff_follower :
    (Served (sender plainCollection) alice none toFollowers ↔
      Covered (sender plainCollection) alice none toFollowers) ∧
    deliveryUrls (sender plainCollection) alice none toFollowers = [bob ++ "/inbox"] :=
  ⟨served_iff plain_few, by decide +kernel⟩

theorem bob_delivers : Delivers (sender collection) bob (bob ++ "/inbox") := by
  have remote : bob ≠ alice := by decide +kernel
  exact ⟨by simp [sender, remote], _, bob ++ "/inbox", rfl, secure_inbox.accepted collection, rfl⟩

/-- A recipient given as an object gets no target, and neither does a follower on the page after an
embedded one. -/
theorem unserved_recipients :
    ¬ Served (sender []) alice none toObject ∧
    ¬ Served (sender embeddedCollection) alice none toFollowers := by
  constructor
  · intro served
    have addressed : Addressed (sender []) toObject bob :=
      ⟨.obj [("id", .str bob)], List.mem_cons_self, bob, rfl, by decide +kernel,
        secure_bob.canonical []⟩
    have outside : bob ∉ buildFollowersCollectionUris (sender []) alice none := by
      rw [sender_collection]
      decide +kernel
    have listed := served.target bob _ (.addressed addressed outside) (bob_delivers [])
    rw [show deliveryUrls (sender []) alice none toObject = [] by decide +kernel] at listed
    cases listed
  · intro served
    have addressed : Addressed (sender embeddedCollection) toFollowers (alice ++ "/followers") :=
      ⟨.str (alice ++ "/followers"), List.mem_cons_self, alice ++ "/followers", rfl,
        by decide +kernel, secure_followers.canonical _⟩
    have follower : Follower (sender embeddedCollection) alice none bob := by
      refine ⟨alice ++ "/followers", ?_, _, sender_fetch embeddedCollection, .str bob, ?_, bob, rfl,
        secure_bob.canonical _, by decide +kernel⟩
      · rw [sender_collection]
        exact List.mem_singleton_self _
      · have other : alice ++ "/followers/2" ≠ alice ++ "/followers" := by decide +kernel
        have page : (sender embeddedCollection).fetchDocument (alice ++ "/followers/2") =
            some (.obj [("orderedItems", .arr [.str bob])]) := by
          simp only [sender, other, if_false, if_true]
        exact .embedded rfl (.linked List.mem_cons_self rfl (secure_page.canonical _) page
          (.own List.mem_cons_self))
    have collection : ∃ f ∈ buildFollowersCollectionUris (sender embeddedCollection) alice none,
        Addressed (sender embeddedCollection) toFollowers f :=
      ⟨alice ++ "/followers", by rw [sender_collection]; exact List.mem_singleton_self _, addressed⟩
    have listed := served.target bob _ (.follower collection follower)
      (bob_delivers embeddedCollection)
    rw [show deliveryUrls (sender embeddedCollection) alice none toFollowers = [] by
      decide +kernel] at listed
    cases listed

end MastopodFederation.Guarantees.ServedRecipients

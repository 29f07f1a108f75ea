import MastopodFederation.Guarantees.ProjectionPlans
import MastopodFederation.Lib.Correspondence
import MastopodFederation.Lib.GuardedRun

/-!
# Live records and active aliases

Events are handled one after another. As long as the ids that an event addresses name no other
records and no other ids name the records it writes, the records that are live in the published
commits are those of the active aliases, id by id.
-/
namespace MastopodFederation.Guarantees.LiveRecords
open Lib.Correspondence Lib.GuardedRun Source.AtProjectionWorker Source.AtProjectionWorker.Server
open ProjectionEffects ProjectionPlans

def keeps (op : AtRepoOp) : Bool := op.opType ≠ .delete

theorem settle_eq (named : String → Option Location) (op : AtRepoOp) :
    settle named op =
      change named op.canonicalRefId (if keeps op then some (locationOf op) else none) := by
  funext id
  unfold settle change keeps
  by_cases kind : op.opType = .delete <;> simp [kind]

theorem apply_eq (records : Location → Option String) (op : AtRepoOp) :
    apply records op =
      change records (locationOf op) (if keeps op then some op.canonicalRefId else none) := by
  funext place
  unfold apply change keeps
  by_cases kind : op.opType = .delete <;> simp [kind]

def Separate (ops : List AtRepoOp) : Prop :=
  ops.Pairwise fun op other =>
    op.canonicalRefId ≠ other.canonicalRefId ∧ locationOf op ≠ locationOf other

theorem corresponds_ops : ∀ (ops : List AtRepoOp) {records : Location → Option String}
    {named : String → Option Location}, Separate ops →
      (∀ op ∈ ops, Free named op.canonicalRefId (locationOf op)) → Corresponds records named →
        Corresponds (ops.foldl apply records) (ops.foldl settle named)
  | [], _, _, _, _, corresponds => corresponds
  | op :: ops, records, named, separate, free, corresponds => by
    obtain ⟨apart, rest⟩ := List.pairwise_cons.mp separate
    rw [List.foldl_cons, List.foldl_cons, settle_eq, apply_eq]
    apply corresponds_ops ops rest
    · intro other listed
      obtain ⟨ids, places⟩ := apart other listed
      exact (free other (List.mem_cons_of_mem _ listed)).change (Ne.symm ids) (Ne.symm places) _
    · exact corresponds.change (free op List.mem_cons_self) _

theorem separate_pair {op other : AtRepoOp} (ids : op.canonicalRefId ≠ other.canonicalRefId)
    (collections : op.collection ≠ other.collection) : Separate [op, other] := by
  refine List.pairwise_cons.mpr ⟨fun later listed => ?_, List.pairwise_singleton ..⟩
  cases List.mem_singleton.mp listed
  exact ⟨ids, fun same => collections (congrArg Location.collection same)⟩

theorem separate_one (op : AtRepoOp) : Separate [op] := List.pairwise_singleton ..

section Plans
variable {env : Environment} {s : Server} {binding : IdentityBinding}

theorem planOn_separate (opType : OpType) (id : String) (asked : Bool) (record : Option AtAliasRecord) :
    Separate (planOn env s binding opType id asked record) := by
  cases record with
  | none => exact .nil
  | some record =>
    unfold planOn opsOn
    dsimp only
    cases teased : teaserOf env s record asked id binding.did with
    | none => exact separate_one _
    | some teaser =>
      apply separate_pair (teaserRefId_ne id)
      unfold teaserOf at teased
      split at teased
      next article =>
        rw [Bool.and_eq_true, decide_eq_true_iff] at article
        change record.collection ≠ .post
        rw [article.1]
        decide
      next => nomatch teased

theorem planFor_separate (delivery : Delivery) : Separate (planFor env s binding delivery) := by
  have social : ∀ found action collection tid,
      Separate (planSocial binding found action collection tid) := by
    intro found action collection tid
    unfold planSocial
    split
    · exact separate_one _
    · exact .nil
  have gone : ∀ action collection canonicalType,
      Separate (planGone s binding action collection canonicalType) := by
    intro action collection canonicalType
    unfold planGone
    split
    · exact .nil
    · exact separate_one _
  unfold planFor
  split
  · split
    · exact separate_one _
    · exact .nil
  next post atRecord asked _ =>
    split
    · unfold planCreated
      dsimp only
      split
      next article =>
        rw [Bool.and_eq_true] at article
        apply separate_pair (teaserRefId_ne post.id)
        change postCollection post ≠ .post
        unfold postCollection
        rw [if_pos article.1]
        decide
      next => exact separate_one _
    · exact .nil
  · split
    · exact planOn_separate _ _ _ _
    · exact .nil
  · exact planOn_separate _ _ _ _
  · exact social _ _ _ _
  · exact social _ _ _ _
  · exact social _ _ _ _
  · exact social _ _ _ _
  · exact gone _ _ _
  · exact gone _ _ _
  · exact gone _ _ _
  · exact gone _ _ _

theorem plan_separate (delivery : Delivery) : Separate (plan env s delivery) := by
  unfold plan
  split
  · exact .nil
  · exact planFor_separate delivery

end Plans

inductive Move where
  | deliver (delivery : Delivery)
  /-- the identity binding of an account changes -/
  | bind (accountId : String) (binding : Option IdentityBinding)

def rebind (s : Server) (accountId : String) (binding : Option IdentityBinding) : Server :=
  { s with bindings := fun id => if id = accountId then binding else s.bindings id }

section Moves
variable (env : Environment)

def move (s : Server) : Move → Server
  | .deliver delivery => (s.deliver env undisturbed delivery).2
  | .bind accountId binding => rebind s accountId binding

def step (s : Server) (m : Move) : Option Server := some (move env s m)

def HasDid (s : Server) (delivery : Delivery) : Prop :=
  ∀ binding, s.bindings (accountOf delivery.event) = some binding → Bound binding

def Addressed : Server → Move → Prop
  | s, .deliver delivery => HasDid s delivery ∧ ∀ op ∈ plan env s delivery, Fits s op
  | _, .bind .. => True

def Agree (s : Server) : Prop := Corresponds (live s.commits) (activeAt s)

theorem agree_empty (bindings : String → Option IdentityBinding) : Agree (.empty bindings) := by
  intro place id
  constructor <;> exact fun none => nomatch none

theorem Fits.free {s : Server} {op : AtRepoOp} (fits : Fits s op) :
    Free (activeAt s) op.canonicalRefId (locationOf op) := ⟨fits.1, fits.2⟩

theorem agree_projects {s t : Server} {ops : List AtRepoOp} (agree : Agree s) (separate : Separate ops)
    (fits : ∀ op ∈ ops, Fits s op) (projects : Projects s ops t) : Agree t := by
  unfold Agree
  rw [projects.live, projects.active]
  exact corresponds_ops ops separate (fun op listed => Fits.free (fits op listed)) agree

theorem deliver_projects {s : Server} {delivery : Delivery} (bound : HasDid s delivery)
    (fits : ∀ op ∈ plan env s delivery, Fits s op) :
    Projects s (plan env s delivery) (s.deliver env undisturbed delivery).2 := by
  obtain ⟨t, given, projects⟩ := delivery_completes env delivery bound fits
  have ran : s.deliver env undisturbed delivery = (.ok (), t) := given
  rw [ran]
  exact projects

theorem agree_step {s t : Server} {m : Move} (agree : Agree s) (addressed : Addressed env s m)
    (moved : step env s m = some t) : Agree t := by
  cases moved
  cases m with
  | deliver delivery =>
    exact agree_projects agree (plan_separate delivery) addressed.2
      (deliver_projects env addressed.1 addressed.2)
  | bind accountId binding => exact agree

structure Reachable (s : Server) (place : Location) (id : String) : Prop where
  deleted : ∀ author binding tid, s.bindings author = some binding → binding.did = place.did →
    place.did ≠ "" →
      live (s.deliver env undisturbed ⟨.postDeleted id author none false, tid⟩).2.commits place = none
  updated : ∀ author binding isArticle tid, s.bindings author = some binding →
    binding.did = place.did → canProject binding = true →
      ∃ commit, (s.deliver env undisturbed
          ⟨.postUpdated ⟨id, author, isArticle, .public_⟩ none false, tid⟩).2.commits =
            commit :: s.commits ∧
        commit.ops.map (·.op) = [opOf binding .update place.collection place.rkey id]

section Reach
variable {env} {s : Server} {place : Location} {id : String}

theorem reached_active {expected : Option (Collection × CanonicalType)} {did : String}
    {atRecord : Option AtRecordLocator} (there : activeAt s id = some place) :
    ∃ record, reached s id expected did atRecord = some record ∧ placeOf record = place := by
  obtain ⟨record, active, same⟩ := Option.map_eq_some_iff.mp there
  refine ⟨record, ?_, same⟩
  unfold reached
  rw [active]
  rfl

theorem teaserOf_unasked (record : AtAliasRecord) (did : String) :
    teaserOf env s record false id did = none := by
  unfold teaserOf
  simp

theorem planOn_active {binding : IdentityBinding} {opType : OpType}
    {expected : Option (Collection × CanonicalType)} {atRecord : Option AtRecordLocator}
    (there : activeAt s id = some place) :
    planOn env s binding opType id false (reached s id expected binding.did atRecord) =
      [opOf binding opType place.collection place.rkey id] := by
  obtain ⟨record, found, same⟩ := @reached_active s place id expected binding.did atRecord there
  rw [found]
  unfold planOn opsOn
  dsimp only
  rw [teaserOf_unasked, ← same]
  rfl

theorem fits_active {op : AtRepoOp} (agree : Agree s) (there : activeAt s op.canonicalRefId = some (locationOf op)) :
    Fits s op := by
  refine ⟨fun other same => ?_, fun other same => ?_⟩
  · rw [there] at same
    exact (Option.some.inj same).symm
  · have own := (agree (locationOf op) op.canonicalRefId).mpr there
    have others := (agree (locationOf op) other).mpr same
    rw [own] at others
    exact (Option.some.inj others).symm

theorem fits_op {binding : IdentityBinding} {opType : OpType} (agree : Agree s)
    (there : activeAt s id = some place) (own : binding.did = place.did) :
    ∀ op ∈ [opOf binding opType place.collection place.rkey id], Fits s op := by
  intro op listed
  cases List.mem_singleton.mp listed
  apply fits_active agree
  rw [show locationOf (opOf binding opType place.collection place.rkey id) =
    ⟨binding.did, place.collection, place.rkey⟩ from rfl, own]
  exact there

theorem Agree.reachable (agree : Agree s) (there : live s.commits place = some id) :
    Reachable env s place id := by
  have active := (agree place id).mp there
  constructor
  · intro author binding tid stored own named
    have planned : plan env s ⟨.postDeleted id author none false, tid⟩ =
        [opOf binding .delete place.collection place.rkey id] := by
      unfold plan
      rw [show s.bindings (accountOf (.postDeleted id author none false)) = _ from stored]
      exact planOn_active active
    have bound : HasDid s ⟨.postDeleted id author none false, tid⟩ := by
      intro other same
      cases stored.symm.trans same
      exact fun none => named (own.symm.trans none)
    have projects := deliver_projects env bound (planned ▸ fits_op agree active own)
    rw [projects.live, planned]
    change apply (live s.commits) (opOf binding .delete place.collection place.rkey id) place = none
    have here : place = locationOf (opOf binding .delete place.collection place.rkey id) := by
      change place = ⟨binding.did, place.collection, place.rkey⟩
      rw [own]
    unfold apply
    rw [if_pos here]
    rfl
  · intro author binding isArticle tid stored own allowed
    have planned : plan env s ⟨.postUpdated ⟨id, author, isArticle, .public_⟩ none false, tid⟩ =
        [opOf binding .update place.collection place.rkey id] := by
      unfold plan
      rw [show s.bindings (accountOf (.postUpdated ⟨id, author, isArticle, .public_⟩ none false)) = _
        from stored]
      have projectable : canProjectPost ⟨id, author, isArticle, .public_⟩ binding = true := by
        simp [canProjectPost, allowed]
      simp only [planFor]
      rw [if_pos projectable]
      exact planOn_active active
    have bound : HasDid s ⟨.postUpdated ⟨id, author, isArticle, .public_⟩ none false, tid⟩ := by
      intro other same
      cases stored.symm.trans same
      exact bound_of_canProject allowed
    have projects := deliver_projects env bound (planned ▸ fits_op agree active own)
    rcases projects.commits with ⟨none, -⟩ | ⟨commit, more, carried⟩
    · rw [planned] at none
      cases none
    · exact ⟨commit, more, carried.trans planned⟩

end Reach

/-- In every run in which the ids that an event addresses name no other records and no other ids
name the records it writes, live records and active aliases correspond, and every live record can
be updated and deleted by its id. -/
theorem records_correspond (bindings : String → Option IdentityBinding) (s : Server)
    (run : Reaches (ofFunction (step env)) (Addressed env) (.empty bindings) s) :
    (∀ place id, live s.commits place = some id ↔ activeAt s id = some place) ∧
      ∀ place id, live s.commits place = some id → Reachable env s place id := by
  have agree : Agree s := by
    apply run.invariant (I := Agree)
    · exact fun s m t agree addressed moved => agree_step env agree addressed moved
    · exact agree_empty bindings
  exact ⟨agree, fun place id there => agree.reachable there⟩

end Moves

section Decide
variable {s : Server} {op : AtRepoOp}

def FitsStored (s : Server) (op : AtRepoOp) : Prop :=
  ∀ record ∈ s.aliases, record.deleted = false →
    (record.canonicalRefId = op.canonicalRefId ↔ placeOf record = locationOf op)

theorem stored_of_active {id : String} {place : Location} (there : activeAt s id = some place) :
    ∃ record ∈ s.aliases, record.deleted = false ∧ record.canonicalRefId = id ∧
      placeOf record = place := by
  obtain ⟨record, active, same⟩ := Option.map_eq_some_iff.mp there
  obtain ⟨found, kept⟩ := active_eq_some active
  exact ⟨record, List.mem_of_find?_eq_some found, kept, name_of_found found, same⟩

theorem fits_of_stored (fits : FitsStored s op) : Fits s op := by
  refine ⟨fun place there => ?_, fun id there => ?_⟩
  · obtain ⟨record, listed, kept, own, rfl⟩ := stored_of_active there
    exact (fits record listed kept).mp own
  · obtain ⟨record, listed, kept, rfl, place⟩ := stored_of_active there
    exact (fits record listed kept).mpr place

def AddressedStored (env : Environment) (s : Server) : Move → Prop
  | .deliver delivery => (match s.bindings (accountOf delivery.event) with
      | none => True
      | some binding => binding.did ≠ "") ∧ ∀ op ∈ plan env s delivery, FitsStored s op
  | .bind .. => True

instance (s : Server) (op : AtRepoOp) : Decidable (FitsStored s op) := by
  unfold FitsStored
  infer_instance

instance (env : Environment) (s : Server) : ∀ m, Decidable (AddressedStored env s m)
  | .deliver _ => by
    unfold AddressedStored
    dsimp only
    split <;> infer_instance
  | .bind .. => .isTrue trivial

theorem addressed_of_stored {env : Environment} {m : Move} (addressed : AddressedStored env s m) :
    Addressed env s m := by
  cases m with
  | bind => trivial
  | deliver delivery =>
    obtain ⟨named, fits⟩ := addressed
    refine ⟨fun binding stored => ?_, fun op listed => fits_of_stored (fits op listed)⟩
    rw [stored] at named
    exact named

end Decide

def hashed : Environment := ⟨fun rkey => if rkey = "k2" then "feb57592747a1" else ""⟩

theorem named : "acc" ≠ "" := by decide

def owner : IdentityBinding := ⟨"acc", some "did:plc:a", some "a.example", true, named⟩

def accounts (accountId : String) : Option IdentityBinding :=
  if accountId = "acc" then some owner else none

def note : CanonicalPost := ⟨"p", "acc", false, .public_⟩

def article : CanonicalPost := ⟨"q", "acc", true, .public_⟩

def seen (s : Server) : List (Option String) × List (Option String) :=
  ([⟨"did:plc:a", .post, "k1"⟩, ⟨"did:plc:a", .document, "k2"⟩, ⟨"did:plc:a", .post, "feb57592747a1"⟩].map
    (live s.commits), ["p", "q", "q::teaser"].map fun id => (activeAt s id).map (·.rkey))

def moves : List Move :=
  [.deliver ⟨.postCreated note none false, "k0"⟩, .deliver ⟨.postUpdated note none false, ""⟩,
    .deliver ⟨.postDeleted "p" "acc" none false, ""⟩, .deliver ⟨.postDeleted "p" "acc" none false, ""⟩,
    .deliver ⟨.postCreated note none false, "k1"⟩, .deliver ⟨.postCreated article none true, "k2"⟩]

theorem records_correspond_moves :
    ∃ s, Reaches (ofFunction (step hashed)) (Addressed hashed) (.empty accounts) s ∧
      seen s = ([some "p", some "q", some "q::teaser"],
        [some "k1", some "k2", some "feb57592747a1"]) ∧
      (∀ place id, live s.commits place = some id ↔ activeAt s id = some place) ∧
      ∀ place id, live s.commits place = some id → Reachable hashed s place id := by
  have looks : (runGuarded (step hashed) (AddressedStored hashed) (.empty accounts) moves).map seen =
      some ([some "p", some "q", some "q::teaser"], [some "k1", some "k2", some "feb57592747a1"]) := by
    decide +kernel
  obtain ⟨s, ran, ends⟩ := Option.map_eq_some_iff.mp looks
  have run : Reaches (ofFunction (step hashed)) (Addressed hashed) (.empty accounts) s :=
    Relation.ReflTransGen.mono (fun _ _ moved =>
      moved.imp fun m next => ⟨addressed_of_stored next.1, next.2⟩) _ _
        (reaches_of_runGuarded moves _ s ran)
  exact ⟨s, run, ends, records_correspond hashed accounts s run⟩

def redelivered : List Move :=
  [.deliver ⟨.postCreated note none false, "k1"⟩, .deliver ⟨.postCreated note none false, "k0"⟩]

theorem record_orphaned :
    ¬ ∀ (env : Environment) (bindings : String → Option IdentityBinding) (s : Server),
      Reaches (ofFunction (step env)) always (.empty bindings) s →
        ∀ place id, live s.commits place = some id ↔ activeAt s id = some place := by
  intro correspond
  have looks : (runGuarded (step hashed) always (.empty accounts) redelivered).map
      (fun s => (live s.commits ⟨"did:plc:a", .post, "k1"⟩, (activeAt s "p").map (·.rkey))) =
        some (some "p", some "k0") := by decide +kernel
  obtain ⟨s, ran, ends⟩ := Option.map_eq_some_iff.mp looks
  obtain ⟨there, named⟩ := Prod.mk.inj ends
  have run := reaches_of_runGuarded redelivered _ s ran
  have active := (correspond hashed accounts s run _ _).mp there
  rw [active] at named
  exact absurd (Option.some.inj named) (by decide)

end MastopodFederation.Guarantees.LiveRecords

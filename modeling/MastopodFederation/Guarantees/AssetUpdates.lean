import MastopodFederation.Guarantees.AssetCalls
import MastopodFederation.Guarantees.AssetMerges

/-!
# Updates of canonical assets

As long as every SET writes over the very asset that its value was made from, and every merge
keeps what it merges, the stored asset contains the asset of every save and counts the saves
(`updates_kept`). A repair that writes back what it loaded before a save loses the save
(`repair_forgets`).
-/
namespace MastopodFederation.Guarantees.AssetUpdates
open Lib.WorkerPool Lib.GuardedRun Lib.PoolRuns Source.CanonicalAssets
open Source.AssetStore Source.AssetBackend AssetCalls AssetMerges
open Source.SecureWorker (Thrown)

variable {Blob : Type} {env : Environment} {s after : Store} {task : Task} {d : Duty}
  {c : Call Blob} {reply : Reply c} {duties : Nat → Option (Task × Duty)} {i : Nat} {id : String}

structure Later (s after : Store) : Prop where
  present : ∀ id, s.assets id ≠ none → after.assets id ≠ none
  version : ∀ id, s.version id ≤ after.version id
  same : ∀ id, after.version id = s.version id → after.assets id = s.assets id

theorem Later.of_same (assets : after.assets = s.assets) (version : after.version = s.version) :
    Later s after where
  present id there := by rw [assets]; exact there
  version id := by rw [version]
  same id _ := by rw [assets]

theorem later_write (s : Store) (key : String) (asset : CanonicalAsset) :
    Later s (s.write key asset) where
  present id there := by
    simp only [Store.write]
    split
    · exact Option.some_ne_none _
    · exact there
  version id := by
    simp only [Store.write]
    split <;> omega
  same id unchanged := by
    simp only [Store.write] at unchanged ⊢
    split
    next here => rw [if_pos here] at unchanged; omega
    next => rfl

@[simp] theorem assets_notes (key : String) (asset : CanonicalAsset) :
    (task.notes key asset s).assets = s.assets := by
  cases task <;> rfl

@[simp] theorem version_notes (key : String) (asset : CanonicalAsset) :
    (task.notes key asset s).version = s.version := by
  cases task <;> rfl

@[simp] theorem index_notes (key : String) (asset : CanonicalAsset) :
    (task.notes key asset s).index = s.index := by
  cases task <;> rfl

theorem later_performs (performs : Performs task c s reply after) : Later s after := by
  cases performs with
  | setNx vacant => exact later_write s _ _
  | exec unchanged =>
    have wrote := later_write s ‹String› ‹CanonicalAsset›
    exact ⟨wrote.present, wrote.version, wrote.same⟩
  | set =>
    rename_i key asset basis
    have wrote := later_write s key asset
    constructor
    · rw [assets_notes]; exact wrote.present
    · rw [version_notes]; exact wrote.version
    · rw [assets_notes, version_notes]; exact wrote.same
  | _ => exact .of_same rfl rfl

def Knows (s : Store) (assetId : String) : Progress → Prop
  | .fresh => True
  | .taken | .lastResort _ => s.assets assetId ≠ none
  | .watching version => s.assets assetId ≠ none ∧ version ≤ s.version assetId
  | .read version basis => s.assets assetId ≠ none ∧ version ≤ s.version assetId ∧
    (s.version assetId = version → s.assets assetId = some basis)

def Plausible (s : Store) (task : Task) : Duty → Prop
  | .saving asset progress => task = .save asset ∧ asset.ingestCount = some 1 ∧
    Knows s asset.assetId progress
  | .saved asset _ => task = .save asset ∧ s.assets asset.assetId ≠ none
  | .other _ => ∀ asset, task ≠ .save asset
  | .impossible => False

variable {progress : Progress}

theorem Knows.later {assetId : String} (later : Later s after)
    (knows : Knows s assetId progress) : Knows after assetId progress := by
  have moved := later.version assetId
  cases progress with
  | fresh => trivial
  | taken => exact later.present _ knows
  | lastResort basis => exact later.present _ knows
  | watching version => exact ⟨later.present _ knows.1, by have := knows.2; omega⟩
  | read version basis =>
    obtain ⟨there, watched, unchanged⟩ := knows
    refine ⟨later.present _ there, by omega, fun still => ?_⟩
    rw [later.same assetId (by omega)]
    exact unchanged (by omega)

theorem Plausible.later (later : Later s after) (likely : Plausible s task d) :
    Plausible after task d := by
  cases d with
  | saving asset progress => exact ⟨likely.1, likely.2.1, likely.2.2.later later⟩
  | saved asset unlisted => exact ⟨likely.1, later.present _ likely.2⟩
  | other unlisted => exact likely
  | impossible => exact likely

def unlisted : Duty → Option String
  | .saved asset true => some asset.assetId
  | .other assetId => assetId
  | _ => none

def stores : Duty → Option CanonicalAsset
  | .saved asset _ => some asset
  | _ => none

inductive Moves (env : Environment) (task : Task) (s : Store) :
    Call Blob → Duty → Store → Duty → Prop where
  | quiet {c : Call Blob} {d d' : Duty} {after : Store} (assets : after.assets = s.assets)
      (version : after.version = s.version) (replaced : after.replaced = s.replaced)
      (index : ∀ id ∈ s.index, s.assets id ≠ none → id ∈ after.index)
      (unlists : unlisted d' = unlisted d) (stored : stores d' = stores d) : Moves env task s c d after d'
  | enlist {assetId : String} {d d' : Duty} (unlists : unlisted d = some assetId)
      (listed : unlisted d' = none) (stored : stores d' = stores d) :
      Moves env task s (.sAdd assetId) d (s.enlist assetId) d'
  | create {asset : CanonicalAsset} (vacant : s.assets asset.assetId = none) :
      Moves env task s (.setNx asset) (.saving asset .fresh) (s.write asset.assetId asset)
        (.saved asset true)
  | merge {asset basis : CanonicalAsset} {version : Nat}
      (unchanged : s.version asset.assetId = version) (read : s.assets asset.assetId = some basis) :
      Moves env task s
        (.exec asset.assetId (mergeCanonicalAsset env.localeCompare basis asset) version)
        (.saving asset (.read version basis))
        ((s.write asset.assetId (mergeCanonicalAsset env.localeCompare basis asset)).enlist
          asset.assetId)
        (.saved asset false)
  | overwrite {asset basis : CanonicalAsset} (taken : s.assets asset.assetId ≠ none) :
      Moves env task s
        (.set asset.assetId (mergeCanonicalAsset env.localeCompare basis asset) basis)
        (.saving asset (.lastResort basis))
        (s.write asset.assetId (mergeCanonicalAsset env.localeCompare basis asset))
        (.saved asset false)
  | replace {asset basis : CanonicalAsset} (repairs : Repairs basis asset) :
      Moves env task s (.set asset.assetId asset basis) (.other none)
        (task.notes asset.assetId asset (s.write asset.assetId asset)) (.other (some asset.assetId))

variable {asset : CanonicalAsset} {key : String}

theorem notes_save {stored : CanonicalAsset} (saves : task = .save asset) :
    task.notes key stored s = s := by
  subst saves
  rfl

/-- Calls that neither write nor list an asset leave the store alone, but for the index of
ids without an asset. -/
theorem quiet_performs (plain : harmless c = true) (performs : Performs task c s reply after) :
    after.assets = s.assets ∧ after.version = s.version ∧ after.replaced = s.replaced ∧
      ∀ id ∈ s.index, s.assets id ≠ none → id ∈ after.index := by
  cases performs with
  | prune =>
    refine ⟨rfl, rfl, rfl, fun id listed there => List.mem_filter.mpr ⟨listed, ?_⟩⟩
    simp [there]
  | setNx _ | setNxTaken _ | sAdd | exec _ | execAborted _ | set => nomatch plain
  | _ => exact ⟨rfl, rfl, rfl, fun id listed _ => listed⟩

variable {d' : Duty}

theorem moves_quiet (plain : harmless c = true) (performs : Performs task c s reply after)
    (unlists : unlisted d' = unlisted d) (stored : stores d' = stores d) :
    Moves env task s c d after d' := by
  obtain ⟨assets, version, replaced, index⟩ := quiet_performs plain performs
  exact .quiet assets version replaced index unlists stored

theorem moves_get {next : CanonicalAsset → Progress}
    {reply : Option CanonicalAsset} (saves : task = .save asset)
    (fresh : asset.ingestCount = some 1) (there : s.assets asset.assetId ≠ none)
    (knows : ∀ basis, s.assets asset.assetId = some basis → Knows s asset.assetId (next basis))
    (performs : Performs task (.get asset.assetId : Call Blob) s reply after) :
    Moves env task s (.get asset.assetId : Call Blob) (.saving asset progress) after
        (Duty.reading (fun basis => .saving asset (next basis)) reply) ∧
      Plausible after task (Duty.reading (fun basis => .saving asset (next basis)) reply) := by
  cases performs with
  | get =>
    cases found : s.assets asset.assetId with
    | none => exact absurd found there
    | some basis =>
      exact ⟨.quiet rfl rfl rfl (fun id listed _ => listed) rfl rfl, saves, fresh, knows basis found⟩
  | outside other => nomatch other

theorem moves_saving
    (likely : Plausible s task (.saving asset progress))
    (allowed : Duty.allows env (.saving asset progress) c) (performs : Performs task c s reply after) :
    Moves env task s c (.saving asset progress) after (Duty.after (.saving asset progress) c reply) ∧
      Plausible after task (Duty.after (.saving asset progress) c reply) := by
  obtain ⟨saves, fresh, knows⟩ := likely
  have later := later_performs performs
  cases progress with
  | fresh =>
    cases c with
    | setNx stored =>
      cases (allowed : stored = asset)
      cases performs with
      | setNx vacant => exact ⟨.create vacant, saves, by simp [Store.write]⟩
      | setNxTaken taken =>
        refine ⟨.quiet rfl rfl rfl (fun id listed _ => listed) rfl rfl, saves, fresh, ?_⟩
        exact fun gone => nomatch taken.symm.trans gone
      | outside other => nomatch other
    | _ => exact allowed.elim
  | taken =>
    cases c with
    | watch key =>
      cases (allowed : key = asset.assetId)
      cases performs with
      | watch => exact ⟨moves_quiet rfl .watch rfl rfl, saves, fresh, knows, Nat.le_refl _⟩
      | outside other => nomatch other
    | get key =>
      cases (allowed : key = asset.assetId)
      exact moves_get saves fresh knows (fun basis found => knows) performs
    | _ => exact allowed.elim
  | watching version =>
    cases c with
    | get key =>
      cases (allowed : key = asset.assetId)
      exact moves_get saves fresh knows.1 (fun basis found => ⟨knows.1, knows.2, fun _ => found⟩)
        performs
    | _ => exact allowed.elim
  | read version basis =>
    cases c with
    | exec key merged watched =>
      obtain ⟨rfl, rfl, rfl⟩ := allowed
      cases performs with
      | exec unchanged =>
        refine ⟨.merge unchanged (knows.2.2 unchanged), saves, by simp [Store.write, Store.enlist]⟩
      | execAborted changed =>
        exact ⟨.quiet rfl rfl rfl (fun id listed _ => listed) rfl rfl, saves, fresh, knows.1⟩
      | outside other => nomatch other
    | _ => exact allowed.elim
  | lastResort basis =>
    cases c with
    | set key merged existing =>
      obtain ⟨rfl, rfl, rfl⟩ := allowed
      cases performs with
      | set =>
        rw [notes_save saves]
        exact ⟨.overwrite knows, saves, by simp [Store.write]⟩
      | outside other => nomatch other
    | _ => exact allowed.elim

theorem moves (likely : Plausible s task d) (allowed : d.allows env c)
    (performs : Performs task c s reply after) :
    Moves env task s c d after (d.after c reply) ∧ Plausible after task (d.after c reply) := by
  have later := later_performs performs
  cases d with
  | impossible => exact likely.elim
  | saving asset progress => exact moves_saving likely allowed performs
  | saved asset due =>
    cases due with
    | false => cases c <;> exact allowed.elim
    | true =>
      cases c with
      | sAdd key =>
        cases (allowed : key = asset.assetId)
        cases performs with
        | sAdd => exact ⟨.enlist rfl rfl rfl, likely.later later⟩
        | outside other => nomatch other
      | _ => exact allowed.elim
  | other due =>
    cases due with
    | some key =>
      cases c with
      | sAdd named =>
        cases (allowed : named = key)
        cases performs with
        | sAdd => exact ⟨.enlist rfl rfl rfl, likely⟩
        | outside other => nomatch other
      | _ => exact allowed.elim
    | none =>
      cases c with
      | set key asset basis =>
        obtain ⟨rfl, repairs⟩ := allowed
        cases performs with
        | set => exact ⟨.replace repairs, likely⟩
        | outside other => nomatch other
      | setNx _ | sAdd _ | exec _ _ _ => exact nomatch allowed
      | _ => exact ⟨moves_quiet rfl performs rfl rfl, likely⟩

def Awaited (duties : Nat → Option (Task × Duty)) (id : String) : Prop :=
  ∃ i task d, duties i = some (task, d) ∧ unlisted d = some id

def Indexed (s : Store) (duties : Nat → Option (Task × Duty)) : Prop :=
  ∀ id, s.assets id ≠ none → id ∈ s.index ∨ Awaited duties id

def Known (s : Store) (duties : Nat → Option (Task × Duty)) : Prop :=
  ∀ i task d, duties i = some (task, d) → Plausible s task d

theorem known_moves (known : Known s duties) (later : Later s after)
    (mine : Plausible after task d') : Known after (setDuty duties i (some (task, d'))) := by
  intro j t other held
  rcases setDuty_some held with ⟨-, same⟩ | ⟨-, old⟩
  · cases same
    exact mine
  · exact (known j t other old).later later

theorem awaited_setDuty (duty : duties i = some (task, d)) (awaited : Awaited duties id) :
    unlisted d = some id ∨ Awaited (setDuty duties i (some (task, d'))) id := by
  obtain ⟨j, t, other, held, due⟩ := awaited
  by_cases same : j = i
  · subst same
    cases duty.symm.trans held
    exact .inl due
  · exact .inr ⟨j, t, other, (if_neg same).trans held, due⟩

theorem awaited_self (due : unlisted d' = some id) :
    Awaited (setDuty duties i (some (task, d'))) id :=
  ⟨i, task, d', if_pos rfl, due⟩

theorem mem_enlist {assetId : String} : id ∈ (s.enlist assetId).index ↔ id = assetId ∨ id ∈ s.index := by
  unfold Store.enlist
  dsimp only
  split
  next listed =>
    constructor
    · exact .inr
    · rintro (rfl | there)
      · exact listed
      · exact there
  next => rw [List.mem_cons]

theorem present_write
    (there : (s.write key asset).assets id ≠ none) : id = key ∨ s.assets id ≠ none := by
  by_cases same : id = key
  · exact .inl same
  · simp only [Store.write, if_neg same] at there
    exact .inr there

theorem indexed_moves (duty : duties i = some (task, d)) (indexed : Indexed s duties)
    (moves : Moves env task s c d after d') : Indexed after (setDuty duties i (some (task, d'))) := by
  have old {id : String} (there : s.assets id ≠ none) :
      id ∈ s.index ∨ unlisted d = some id ∨ Awaited (setDuty duties i (some (task, d'))) id :=
    (indexed id there).imp_right (awaited_setDuty duty)
  intro id there
  cases moves with
  | quiet assets version replaced index unlists stored =>
    rw [assets] at there
    rcases old there with listed | mine | others
    · exact .inl (index id listed there)
    · exact .inr (awaited_self (unlists.trans mine))
    · exact .inr others
  | enlist unlists listed stored =>
    rcases old there with before | mine | others
    · exact .inl (mem_enlist.mpr (.inr before))
    · exact .inl (mem_enlist.mpr (.inl (Option.some.inj (mine.symm.trans unlists))))
    · exact .inr others
  | create vacant =>
    rcases present_write there with rfl | before
    · exact .inr (awaited_self rfl)
    · exact (old before).imp_right (·.resolve_left nofun)
  | merge unchanged read =>
    rcases present_write there with rfl | before
    · exact .inl (mem_enlist.mpr (.inl rfl))
    · exact (old before).imp (fun listed => mem_enlist.mpr (.inr listed)) (·.resolve_left nofun)
  | overwrite taken =>
    rcases present_write there with rfl | before
    · exact (old taken).imp_right (·.resolve_left nofun)
    · exact (old before).imp_right (·.resolve_left nofun)
  | replace repairs =>
    rw [assets_notes] at there
    rw [index_notes]
    rcases present_write there with rfl | before
    · exact .inr (awaited_self rfl)
    · exact (old before).imp_right (·.resolve_left nofun)

def Holds : Option CanonicalAsset → CanonicalAsset → Prop
  | none, _ => False
  | some stored, asset => Contains stored asset

def counted (stored : Option CanonicalAsset) : Nat := stored.elim 0 fun asset => asset.ingestCount.getD 1

def SavedAs (id : String) (duty : Option (Task × Duty)) : Prop :=
  ∃ task d asset, duty = some (task, d) ∧ stores d = some asset ∧ asset.assetId = id

structure Complete (id : String) (s : Store) (duties : Nat → Option (Task × Duty))
    (callers : Finset Nat) : Prop where
  savers : ∀ i, i ∈ callers ↔ SavedAs id (duties i)
  saved : ∀ i task d asset, duties i = some (task, d) → stores d = some asset →
    asset.assetId = id → Holds (s.assets id) asset
  replaced : ∀ asset, (id, asset) ∈ s.replaced → Holds (s.assets id) asset
  count : counted (s.assets id) = callers.card

variable {callers : Finset Nat}

theorem Holds.grows {old new : Option CanonicalAsset}
    (holds : Holds old asset)
    (grows : ∀ stored, old = some stored → ∃ later, new = some later ∧ Contains later stored) :
    Holds new asset := by
  cases old with
  | none => exact holds.elim
  | some stored =>
    obtain ⟨later, rfl, contains⟩ := grows stored rfl
    exact contains.trans holds

theorem savedAs_setDuty (duty : duties i = some (task, d)) (stored : stores d' = stores d)
    (j : Nat) : SavedAs id (setDuty duties i (some (task, d')) j) ↔ SavedAs id (duties j) := by
  by_cases same : j = i
  · subst same
    simp [SavedAs, setDuty, duty, stored]
  · simp [setDuty, same]

theorem complete_same (duty : duties i = some (task, d)) (stored : stores d' = stores d)
    (count : counted (after.assets id) = counted (s.assets id))
    (grows : ∀ old, s.assets id = some old →
      ∃ later, after.assets id = some later ∧ Contains later old)
    (replaced : ∀ asset, (id, asset) ∈ after.replaced →
      (id, asset) ∈ s.replaced ∨ Holds (after.assets id) asset)
    (complete : Complete id s duties callers) :
    Complete id after (setDuty duties i (some (task, d'))) callers where
  savers j := (complete.savers j).trans (savedAs_setDuty duty stored j).symm
  saved j t other asset held stores of := by
    rcases setDuty_some held with ⟨-, same⟩ | ⟨-, old⟩
    · cases same
      exact (complete.saved i _ d asset duty (stored ▸ stores) of).grows grows
    · exact (complete.saved j t other asset old stores of).grows grows
  replaced asset listed := by
    rcases replaced asset listed with old | new
    · exact (complete.replaced asset old).grows grows
    · exact new
  count := count.trans complete.count

theorem notMem_callers (duty : duties i = some (task, d)) (nothing : stores d = none)
    (complete : Complete id s duties callers) : i ∉ callers := by
  rw [complete.savers]
  rintro ⟨t, other, asset, held, stored, -⟩
  cases duty.symm.trans held
  exact nomatch nothing.symm.trans stored

theorem complete_save (new : CanonicalAsset) (duty : duties i = some (task, d))
    (nothing : stores d = none) (stored : stores d' = some asset)
    (assets : after.assets = (s.write asset.assetId new).assets)
    (replaced : after.replaced = s.replaced)
    (grows : ∀ old, s.assets asset.assetId = some old → Contains new old)
    (brings : Contains new asset)
    (count : counted (some new) = counted (s.assets asset.assetId) + 1)
    (complete : Complete id s duties callers) :
    ∃ callers, Complete id after (setDuty duties i (some (task, d'))) callers := by
  by_cases here : asset.assetId = id
  · subst here
    have now : after.assets asset.assetId = some new := by rw [assets]; exact if_pos rfl
    have holds {other : CanonicalAsset} (held : Holds (s.assets asset.assetId) other) :
        Holds (after.assets asset.assetId) other :=
      held.grows fun old there => ⟨new, now, grows old there⟩
    have outside := notMem_callers duty nothing complete
    refine ⟨insert i callers, ⟨fun j => ?_, fun j t other a held stores of => ?_, fun a listed => ?_, ?_⟩⟩
    · rw [Finset.mem_insert]
      by_cases same : j = i
      · subst same
        exact ⟨fun _ => ⟨task, d', asset, if_pos rfl, stored, rfl⟩, fun _ => .inl rfl⟩
      · rw [complete.savers, setDuty, if_neg same]
        exact ⟨fun either => either.resolve_left same, .inr⟩
    · rcases setDuty_some held with ⟨-, same⟩ | ⟨-, old⟩
      · cases same
        cases stored.symm.trans stores
        rw [now]
        exact brings
      · exact holds (complete.saved j t other a old stores of)
    · rw [replaced] at listed
      exact holds (complete.replaced a listed)
    · rw [now, count, complete.count, Finset.card_insert_of_notMem outside]
  · have other : after.assets id = s.assets id := by
      rw [assets]
      exact if_neg fun same => here same.symm
    refine ⟨callers, ⟨fun j => ?_, fun j t o a held stores of => ?_, fun a listed => ?_, ?_⟩⟩
    · rw [complete.savers]
      by_cases same : j = i
      · subst same
        rw [duty]
        constructor
        · rintro ⟨t, o, a, held, stores, -⟩
          cases held
          cases nothing.symm.trans stores
        · rintro ⟨t, o, a, held, stores, of⟩
          simp only [setDuty, if_pos] at held
          cases held
          cases stored.symm.trans stores
          exact absurd of here
      · rw [setDuty, if_neg same]
    · rw [other]
      rcases setDuty_some held with ⟨-, same⟩ | ⟨-, old⟩
      · cases same
        cases stored.symm.trans stores
        exact absurd of here
      · exact complete.saved j t o a old stores of
    · rw [replaced] at listed
      rw [other]
      exact complete.replaced a listed
    · rw [other]
      exact complete.count

def Merges : Task → CanonicalAsset → Prop
  | .save incoming, stored => Mergeable stored incoming
  | _, _ => True

def Rerenders : Task → CanonicalAsset → CanonicalAsset → Prop
  | .save _, _, _ => True
  | _, basis, asset => ∀ variant ∈ basis.variants.playback, Plays asset variant

/-- A SET writes over the asset that its value was made from, and what is written keeps the
names and variants of what it was made from. -/
def Retains (s : Store) (task : Task) : Call Blob → Prop
  | .exec assetId _ watched => s.version assetId = watched →
    ∀ stored ∈ s.assets assetId, Merges task stored
  | .set assetId asset basis => s.assets assetId = some basis ∧ Merges task basis ∧
    Rerenders task basis asset
  | _ => True

def RetainsAt (s : Store) : Option (Worker Task (Call Blob) Reply Thrown Unit) → Prop
  | some ⟨task, .call c _⟩ => Retains s task c
  | _ => True

instance : ∀ (task : Task) stored, Decidable (Merges task stored)
  | .save incoming, stored => inferInstanceAs (Decidable (Mergeable stored incoming))
  | .load, _ | .reconcile _, _ => .isTrue trivial

instance : ∀ (task : Task) basis asset, Decidable (Rerenders task basis asset)
  | .save _, _, _ => .isTrue trivial
  | .load, basis, asset | .reconcile _, basis, asset =>
    inferInstanceAs (Decidable (∀ variant ∈ basis.variants.playback, Plays asset variant))

instance (s : Store) (task : Task) : ∀ c : Call Blob, Decidable (Retains s task c)
  | .exec assetId _ watched => inferInstanceAs (Decidable (s.version assetId = watched →
      ∀ stored ∈ s.assets assetId, Merges task stored))
  | .set assetId _ basis => inferInstanceAs (Decidable (s.assets assetId = some basis ∧ _ ∧ _))
  | .setNx _ | .sAdd _ | .watch _ | .get _ | .unwatch | .sScanIterator | .mGet _ | .prune _
  | .headFilebaseObject _ | .createWorkerScratchDir | .downloadFromFilebaseToPath _
  | .processImageFile _ | .generateBlurPreview _ | .uploadToFilebase _
  | .renderVideoRenditions .. | .persistVideoRenditions .. | .cleanupWorkerScratchDir =>
    .isTrue trivial

instance (s : Store) :
    ∀ worker : Option (Worker Task (Call Blob) Reply Thrown Unit), Decidable (RetainsAt s worker)
  | some ⟨task, .call c _⟩ => inferInstanceAs (Decidable (Retains s task c))
  | some ⟨_, .done _⟩ | none => .isTrue trivial

def NoCrash (_ : AssetPool Blob) : AssetLabel Blob → Prop
  | .stop _ => False
  | _ => True

instance : ∀ (pool : AssetPool Blob) label, Decidable (NoCrash pool label)
  | _, .stop _ => .isFalse fun crash => crash
  | _, .call _ | _, .start .. | _, .act _ => .isTrue trivial

def Undisturbed (pool : AssetPool Blob) : AssetLabel Blob → Prop
  | .stop _ => False
  | .call i => RetainsAt pool.shared (pool.workers i)
  | _ => True

theorem replaced_notes {other : CanonicalAsset}
    (listed : (id, other) ∈ (task.notes key asset s).replaced) :
    (id = key ∧ other = asset) ∨ (id, other) ∈ s.replaced := by
  cases task with
  | save _ | load => exact .inr listed
  | reconcile options =>
    rcases List.mem_cons.mp listed with new | old
    · cases new
      exact .inl ⟨rfl, rfl⟩
    · exact .inr old

instance (pool : AssetPool Blob) : ∀ label, Decidable (Undisturbed pool label)
  | .stop _ => .isFalse fun crash => crash
  | .call i => inferInstanceAs (Decidable (RetainsAt pool.shared (pool.workers i)))
  | .start .. | .act _ => .isTrue trivial

theorem contains_repaired {basis : CanonicalAsset} (repairs : Repairs basis asset)
    (rerenders : ∀ variant ∈ basis.variants.playback, Plays asset variant) : Contains asset basis := by
  rw [repairs]
  exact ⟨fun _ named => named, fun _ named => named, fun marked => marked, fun variant listed => by
    have := rerenders variant listed
    exact this⟩

theorem complete_moves (duty : duties i = some (task, d)) (likely : Plausible s task d)
    (retains : Retains s task c) (moves : Moves env task s c d after d')
    (complete : Complete id s duties callers) :
    ∃ callers, Complete id after (setDuty duties i (some (task, d'))) callers := by
  cases moves with
  | quiet assets version replaced index unlists stored =>
    refine ⟨callers, complete_same duty stored (by rw [assets]) ?_ ?_ complete⟩
    · exact fun old there => ⟨old, by rw [assets]; exact there, .refl⟩
    · exact fun asset listed => .inl (replaced ▸ listed)
  | enlist unlists listed stored =>
    refine ⟨callers, complete_same (s := s) duty stored rfl ?_ ?_ complete⟩
    · exact fun old there => ⟨old, there, .refl⟩
    · exact fun asset listed => .inl listed
  | create vacant =>
    rename_i asset
    refine complete_save asset duty rfl rfl rfl rfl ?_ .refl ?_ complete
    · exact fun old there => nomatch vacant.symm.trans there
    · rw [vacant]
      simp [counted, likely.2.1]
  | merge unchanged read =>
    rename_i asset basis version
    have merges : Merges task basis := retains unchanged basis read
    rw [likely.1] at merges
    refine complete_save (mergeCanonicalAsset env.localeCompare basis asset) duty rfl rfl rfl rfl ?_
      (contains_merged merges).2 ?_ complete
    · intro old there
      cases read.symm.trans there
      exact (contains_merged merges).1
    · rw [read]
      rfl
  | overwrite taken =>
    rename_i asset basis
    obtain ⟨current, merges, -⟩ := retains
    rw [likely.1] at merges
    refine complete_save (mergeCanonicalAsset env.localeCompare basis asset) duty rfl rfl rfl rfl ?_
      (contains_merged merges).2 ?_ complete
    · intro old there
      cases current.symm.trans there
      exact (contains_merged merges).1
    · rw [current]
      rfl
  | replace repairs =>
    rename_i asset basis
    obtain ⟨current, -, rerenders⟩ := retains
    have contains : Contains asset basis := by
      cases task with
      | save incoming => exact absurd rfl (likely incoming)
      | load | reconcile options => exact contains_repaired repairs rerenders
    by_cases here : id = asset.assetId
    · subst here
      have now : (task.notes asset.assetId asset (s.write asset.assetId asset)).assets asset.assetId =
          some asset := by
        rw [assets_notes]
        exact if_pos rfl
      refine ⟨callers, complete_same (s := s) duty rfl ?_ ?_ ?_ complete⟩
      · rw [now, current, counted, counted, Option.elim, Option.elim, repairs]
      · intro old there
        cases current.symm.trans there
        exact ⟨asset, now, contains⟩
      · intro other listed
        rcases replaced_notes listed with ⟨-, rfl⟩ | before
        · right
          rw [now]
          exact .refl
        · exact .inl before
    · have other : (task.notes asset.assetId asset (s.write asset.assetId asset)).assets id =
          s.assets id := by
        rw [assets_notes]
        exact if_neg here
      refine ⟨callers, complete_same (s := s) duty rfl ?_ ?_ ?_ complete⟩
      · rw [other]
      · exact fun old there => ⟨old, other.trans there, .refl⟩
      · intro a listed
        rcases replaced_notes listed with ⟨same, -⟩ | before
        · exact absurd same here
        · exact .inl before

theorem plausible_start (fresh : task.fresh = true) : Plausible s task (initialDuty task) := by
  cases task with
  | save asset =>
    simp only [Task.fresh, decide_eq_true_eq] at fresh
    exact ⟨rfl, fresh, trivial⟩
  | load | reconcile options => exact fun asset same => nomatch same

theorem nothing_stored (task : Task) : stores (initialDuty task) = none := by
  cases task <;> rfl

theorem known_start (known : Known s duties) (mine : Plausible s task d') :
    Known s (setDuty duties i (some (task, d'))) :=
  known_moves known (.of_same rfl rfl) mine

theorem indexed_start (vacant : duties i = none) (indexed : Indexed s duties) :
    Indexed s (setDuty duties i (some (task, d'))) := by
  intro id there
  rcases indexed id there with listed | ⟨j, t, other, held, due⟩
  · exact .inl listed
  · refine .inr ⟨j, t, other, (if_neg ?_).trans held, due⟩
    rintro rfl
    exact nomatch vacant.symm.trans held

theorem complete_start (vacant : duties i = none) (nothing : stores d' = none)
    (complete : Complete id s duties callers) :
    Complete id s (setDuty duties i (some (task, d'))) callers where
  savers j := by
    rw [complete.savers]
    by_cases same : j = i
    · subst same
      rw [vacant]
      constructor
      · rintro ⟨_, _, _, held, -⟩
        cases held
      · rintro ⟨t, other, asset, held, stored, -⟩
        simp only [setDuty, if_pos] at held
        cases held
        cases nothing.symm.trans stored
    · rw [setDuty, if_neg same]
  saved j t other asset held stored of := by
    rcases setDuty_some held with ⟨-, same⟩ | ⟨-, old⟩
    · cases same
      cases nothing.symm.trans stored
    · exact complete.saved j t other asset old stored of
  replaced := complete.replaced
  count := complete.count

theorem known_idle : Known s fun _ => none := by
  intro i task d held
  nomatch held

theorem indexed_initial (index : List String) : Indexed (.initial index) fun _ => none :=
  fun _ there => absurd rfl there

theorem complete_initial (index : List String) (id : String) :
    Complete id (.initial index) (fun _ => none) ∅ where
  savers j := by
    constructor
    · intro inside
      exact absurd inside (Finset.notMem_empty j)
    · rintro ⟨_, _, _, held, -⟩
      nomatch held
  saved i task d asset held := nomatch held
  replaced asset listed := nomatch listed
  count := rfl

theorem index_preserved : PreservesAt (assetSystem env Blob) NoCrash (upkeep env)
    Duty.Settled fun s duties => Known s duties ∧ Indexed s duties where
  call pool duties i task d c next reply after _ inv _ duty allowed performs := by
    obtain ⟨moved, mine⟩ := moves (inv.1 i task d duty) allowed performs
    exact ⟨known_moves inv.1 (later_performs performs) mine, indexed_moves duty inv.2 moved⟩
  stop pool duties i crash := nomatch crash
  start pool duties i worker _ inv vacant starts := by
    refine ⟨initialDuty worker.tag, ?_, known_start inv.1 (plausible_start starts.1),
      indexed_start vacant inv.2⟩
    rw [starts.2]
    exact task_obeys worker.tag
  act pool duties event := nomatch event

theorem content_preserved : PreservesAt (assetSystem env Blob) Undisturbed (upkeep env)
    Duty.Settled fun s duties => Known s duties ∧ ∃ callers, Complete id s duties callers where
  call pool duties i task d c next reply after admitted inv running duty allowed performs := by
    have likely := inv.1 i task d duty
    obtain ⟨callers, complete⟩ := inv.2
    obtain ⟨moved, mine⟩ := moves likely allowed performs
    have retains : Retains pool.shared task c := by
      change RetainsAt pool.shared (pool.workers i) at admitted
      rw [running] at admitted
      exact admitted
    exact ⟨known_moves inv.1 (later_performs performs) mine,
      complete_moves duty likely retains moved complete⟩
  stop pool duties i crash := nomatch crash
  start pool duties i worker _ inv vacant starts := by
    obtain ⟨callers, complete⟩ := inv.2
    refine ⟨initialDuty worker.tag, ?_, known_start inv.1 (plausible_start starts.1),
      callers, complete_start vacant (nothing_stored _) complete⟩
    rw [starts.2]
    exact task_obeys worker.tag
  act pool duties event := nomatch event

def AllDone (pool : AssetPool Blob) : Prop := ∀ i, finished (pool.workers i) = true

def Saves (pool : AssetPool Blob) (id : String) (i : Nat) : Prop :=
  ∃ asset program, pool.workers i = some ⟨.save asset, program⟩ ∧ asset.assetId = id

structure Kept (pool : AssetPool Blob) (id : String) (callers : Finset Nat) : Prop where
  saved : ∀ i asset program, pool.workers i = some ⟨.save asset, program⟩ → asset.assetId = id →
    Holds (pool.shared.assets id) asset
  replaced : ∀ asset, (id, asset) ∈ pool.shared.replaced → Holds (pool.shared.assets id) asset
  count : counted (pool.shared.assets id) = callers.card

section Done
variable {pool : AssetPool Blob}
  (matched : ∀ i, Matches (upkeep env) Duty.Settled (duties i) (pool.workers i))
  (known : Known pool.shared duties) (done : AllDone pool)
include matched done

variable {i : Nat}

theorem settled_of_done {task : Task} {d : Duty} (duty : duties i = some (task, d)) :
    d.Settled := by
  have mine := matched i
  have ended := done i
  cases running : pool.workers i with
  | none =>
    rw [running] at mine
    exact nomatch duty.symm.trans mine
  | some worker =>
    rw [running] at mine ended
    obtain ⟨s, held, obeys⟩ := mine
    cases duty.symm.trans held
    obtain ⟨tag, program⟩ := worker
    cases program with
    | done outcome => exact obeys
    | call c next => nomatch ended

theorem not_awaited (id : String) : ¬Awaited duties id := by
  rintro ⟨i, task, d, duty, due⟩
  have settled := settled_of_done matched done duty
  cases d with
  | saved asset unlists => cases (settled : unlists = false); nomatch due
  | other unlists => cases (settled : unlists = none); nomatch due
  | saving asset progress => nomatch due
  | impossible => nomatch due

include known

theorem saved_of_done {asset : CanonicalAsset} {program : Program Blob Unit}
    (saves : pool.workers i = some ⟨.save asset, program⟩) :
    ∃ d, duties i = some (.save asset, d) ∧ stores d = some asset := by
  have mine := matched i
  rw [saves] at mine
  obtain ⟨d, duty, -⟩ := mine
  refine ⟨d, duty, ?_⟩
  have settled := settled_of_done matched done duty
  have likely := known i _ d duty
  cases d with
  | saved other unlists => cases likely.1; rfl
  | other unlists => exact absurd rfl (likely asset)
  | saving other progress => exact settled.elim
  | impossible => exact likely.elim

theorem savedAs_iff : SavedAs id (duties i) ↔ Saves pool id i := by
  constructor
  · rintro ⟨task, d, asset, duty, stored, of⟩
    have mine := matched i
    have likely := known i _ d duty
    cases running : pool.workers i with
    | none =>
      rw [running] at mine
      exact nomatch duty.symm.trans mine
    | some worker =>
      rw [running] at mine
      obtain ⟨d', duty', -⟩ := mine
      cases duty.symm.trans duty'
      cases d with
      | saved other unlists =>
        cases stored
        obtain ⟨tag, program⟩ := worker
        cases likely.1
        exact ⟨asset, program, running, of⟩
      | other unlists => nomatch stored
      | saving other progress => nomatch stored
      | impossible => nomatch stored
  · rintro ⟨asset, program, saves, of⟩
    obtain ⟨d, duty, stored⟩ := saved_of_done matched known done saves
    exact ⟨_, d, asset, duty, stored, of⟩

end Done

/-- Once all calls have finished, the id of every saved asset is in the index, whatever
happened; and where no write was disturbed, no update is lost. -/
theorem updates_kept (Blob : Type) (env : Environment) (index : List String) :
    (∀ pool : AssetPool Blob,
      Reaches (Step (assetSystem env Blob)) NoCrash (Pool.idle (.initial index)) pool → AllDone pool →
      ∀ id i, Saves pool id i → id ∈ pool.shared.index) ∧
    ∀ pool : AssetPool Blob,
      Reaches (Step (assetSystem env Blob)) Undisturbed (Pool.idle (.initial index)) pool →
      AllDone pool → ∀ id callers, (∀ i, i ∈ callers ↔ Saves pool id i) → Kept pool id callers := by
  constructor
  · intro pool run done id i ⟨asset, program, saves, of⟩
    obtain ⟨duties, ⟨known, indexed⟩, matched⟩ := watchedAt_run index_preserved run
      (watchedTo_idle ⟨known_idle, indexed_initial index⟩)
    obtain ⟨d, duty, stored⟩ := saved_of_done matched known done saves
    have there : pool.shared.assets id ≠ none := by
      have likely := known i _ d duty
      cases d with
      | saved other unlists => cases stored; exact of ▸ likely.2
      | _ => nomatch stored
    exact (indexed id there).resolve_right (not_awaited matched done id)
  · intro pool run done id callers each
    obtain ⟨duties, ⟨known, counted, complete⟩, matched⟩ := watchedAt_run content_preserved run
      (watchedTo_idle ⟨known_idle, ∅, complete_initial index id⟩)
    have same : counted = callers := by
      ext i
      rw [complete.savers, each, savedAs_iff matched known done]
    refine ⟨fun i asset program saves of => ?_, complete.replaced, same ▸ complete.count⟩
    obtain ⟨d, duty, stored⟩ := saved_of_done matched known done saves
    exact complete.saved i _ d asset duty stored of

def plainEnv : Environment where
  localeCompare left right := compare left right
  objectKeyFromCanonicalMediaUrl url := some url
  buildCanonicalMediaUrl key := key

def performed (task : Task) (s : Store) : (c : Call Unit) → Option (Reply c × Store)
  | .setNx asset =>
    if s.assets asset.assetId = none then some (true, s.write asset.assetId asset)
    else some (false, s)
  | .sAdd assetId => some ((), s.enlist assetId)
  | .watch assetId => some (s.version assetId, s)
  | .get assetId => some (s.assets assetId, s)
  | .unwatch => some ((), s)
  | .exec assetId asset watched =>
    if s.version assetId = watched then some (true, (s.write assetId asset).enlist assetId)
    else some (false, s)
  | .set assetId asset _ => some ((), task.notes assetId asset (s.write assetId asset))
  | .sScanIterator => some (s.index, s)
  | .mGet assetIds => some (assetIds.map s.assets, s)
  | .prune assetIds => some ((), s.prune assetIds)
  | .headFilebaseObject _ => some (.ok true, s)
  | .createWorkerScratchDir | .cleanupWorkerScratchDir => some (.ok (), s)
  | .downloadFromFilebaseToPath _ | .generateBlurPreview _ => some (.ok (), s)
  | .processImageFile _ => some (.ok ⟨(), none, none, none⟩, s)
  | .uploadToFilebase upload => some (.ok upload.key, s)
  | .renderVideoRenditions .. => some (.ok ⟨none, none, none, ()⟩, s)
  | .persistVideoRenditions .. => some (.ok ⟨none, none, [], []⟩, s)

def toolsWork : Schedule Store Task Empty (Call Unit) Reply Thrown Unit where
  perform task c s := performed task s c
  boot := body plainEnv
  admits _ task := task.fresh
  react event _ := nomatch event

theorem toolsWork_follows : toolsWork.Follows (assetSystem plainEnv Unit) where
  perform task c s reply after done := by
    change performed task s c = some (reply, after) at done
    cases c with
    | setNx asset =>
      dsimp only [performed] at done
      split at done
      next vacant => cases done; exact .setNx vacant
      next taken =>
        cases done
        obtain ⟨stored, there⟩ := Option.ne_none_iff_exists'.mp taken
        exact .setNxTaken there
    | exec assetId asset watched =>
      dsimp only [performed] at done
      split at done
      next unchanged => cases done; exact .exec unchanged
      next changed => cases done; exact .execAborted changed
    | sAdd _ => cases done; exact .sAdd
    | watch _ => cases done; exact .watch
    | get _ => cases done; exact .get
    | unwatch => cases done; exact .unwatch
    | set _ _ _ => cases done; exact .set
    | sScanIterator => cases done; exact .sScanIterator
    | mGet _ => cases done; exact .mGet
    | prune _ => cases done; exact .prune
    | _ => cases done; exact .outside rfl
  admits s task fresh := ⟨fresh, rfl⟩
  react event := nomatch event

def picture (owner : String) : CanonicalAsset where
  assetId := "c1"
  ownerId := owner
  ownerIds := [owner]
  sha256 := "c1"
  cid := none
  digestMultibase := none
  mimeType := "image/webp"
  size := .finite 1
  duration := none
  width := none
  height := none
  focalPoint := none
  canonicalUrl := "https://media.example/c1.webp"
  gatewayUrl := none
  sourceUrls := []
  variants := ⟨"https://media.example/c1.webp", none, none, [], []⟩
  alt := none
  blurhash := none
  contentWarning := none
  isSensitive := false
  createdAt := "2026-01-01T00:00:00.000Z"
  firstSeenAt := none
  lastSeenAt := none
  ingestCount := some 1

def repairBetween : List (Turn Task Empty) :=
  [.start 0 (.save (picture "alice")), .call 0, .call 0,
    .start 1 (.reconcile ⟨false, some "c1"⟩), .call 1, .call 1,
    .start 2 (.save (picture "bob")), .call 2, .call 2, .call 2, .call 2] ++
  List.replicate 8 (.call 1)

def remains (pool : AssetPool Unit) : Option (List String × Option Nat) × Option Task × Bool :=
  ((pool.shared.assets "c1").map fun a => (owners a, a.ingestCount),
    (pool.workers 2).map (·.tag), (List.range 3).all fun j => finished (pool.workers j))

/-- The repair writes Alice's asset over the merge, and Bob is no owner any more. -/
theorem repair_forgets :
    ∃ pool : AssetPool Unit,
      Reaches (Step (assetSystem plainEnv Unit)) NoCrash (Pool.idle (.initial [])) pool ∧
      AllDone pool ∧ ∃ i asset program, pool.workers i = some ⟨.save asset, program⟩ ∧
        ¬Holds (pool.shared.assets asset.assetId) asset := by
  have ran : (follow toolsWork NoCrash (Pool.idle (.initial [])) repairBetween).map remains =
      some (some (["alice", "alice"], some 1), some (.save (picture "bob")), true) := by
    decide +kernel
  obtain ⟨pool, followed, left⟩ := Option.map_eq_some_iff.mp ran
  simp only [remains, Prod.mk.injEq] at left
  obtain ⟨stored, second, ended⟩ := left
  obtain ⟨asset, there, seen⟩ := Option.map_eq_some_iff.mp stored
  obtain ⟨⟨task, program⟩, working, rfl⟩ := Option.map_eq_some_iff.mp second
  refine ⟨pool, reaches_of_follow toolsWork_follows followed,
    quiet_of_follow followed (by decide) ended, 2, _, program, working, ?_⟩
  change ¬Holds (pool.shared.assets "c1") (picture "bob")
  rw [there]
  intro contains
  have named := contains.owners "bob" (by decide)
  rw [(Prod.mk.inj seen).1] at named
  simp at named

def twoSaves : List (Turn Task Empty) :=
  [.start 0 (.save (picture "alice")), .call 0, .call 0,
    .start 1 (.save (picture "bob")), .call 1, .call 1, .call 1, .call 1]

def remainsOfTwo (pool : AssetPool Unit) :
    Option (List String × Option Nat) × Option Task × Option Task × Bool :=
  ((pool.shared.assets "c1").map fun a => (owners a, a.ingestCount),
    (pool.workers 0).map (·.tag), (pool.workers 1).map (·.tag),
    (List.range 2).all fun j => finished (pool.workers j))

theorem idle_of_follow {guard : AssetPool Unit → AssetLabel Unit → Prop}
    [∀ pool turn, Decidable (guard pool (Turn.label toolsWork turn))] {turns : List (Turn Task Empty)}
    {pool : AssetPool Unit} {n j : Nat}
    (ran : follow toolsWork guard (Pool.idle (.initial [])) turns = some pool)
    (below : turns.all (Turn.below n) = true) (above : n ≤ j) : pool.workers j = none := by
  apply untouched_of_follow turns ran rfl
  intro tag listed
  have started : j < n := of_decide_eq_true (List.all_eq_true.mp below _ listed)
  omega

theorem updates_kept_two :
    ∃ pool : AssetPool Unit,
      Reaches (Step (assetSystem plainEnv Unit)) Undisturbed (Pool.idle (.initial [])) pool ∧
      "c1" ∈ pool.shared.index ∧ Kept pool "c1" {0, 1} := by
  have ran : (follow toolsWork Undisturbed (Pool.idle (.initial [])) twoSaves).map remainsOfTwo =
      some (some (["alice", "bob", "alice"], some 2), some (.save (picture "alice")),
        some (.save (picture "bob")), true) := by
    decide +kernel
  obtain ⟨pool, followed, left⟩ := Option.map_eq_some_iff.mp ran
  simp only [remainsOfTwo, Prod.mk.injEq] at left
  obtain ⟨-, first, second, ended⟩ := left
  obtain ⟨⟨task, program⟩, alice, rfl⟩ := Option.map_eq_some_iff.mp first
  obtain ⟨⟨task, program'⟩, bob, rfl⟩ := Option.map_eq_some_iff.mp second
  have run := reaches_of_follow toolsWork_follows followed
  have done : AllDone pool := quiet_of_follow followed (by decide) ended
  have savesAlice : Saves pool "c1" 0 := ⟨_, program, alice, rfl⟩
  have savesBob : Saves pool "c1" 1 := ⟨_, program', bob, rfl⟩
  have each : ∀ i, i ∈ ({0, 1} : Finset Nat) ↔ Saves pool "c1" i := by
    intro i
    rw [Finset.mem_insert, Finset.mem_singleton]
    constructor
    · rintro (rfl | rfl)
      · exact savesAlice
      · exact savesBob
    · rintro ⟨asset, program, saves, -⟩
      by_contra neither
      rw [idle_of_follow followed (by decide : twoSaves.all (Turn.below 2) = true) (by omega)] at saves
      nomatch saves
  have crashless : Reaches (Step (assetSystem plainEnv Unit)) NoCrash (Pool.idle (.initial [])) pool :=
    Relation.ReflTransGen.mono (fun _ _ ⟨label, admitted, step⟩ =>
      ⟨label, by cases label <;> first | exact admitted | trivial, step⟩) _ _ run
  have kept := updates_kept Unit plainEnv []
  exact ⟨pool, run, kept.1 pool crashless done "c1" 0 savesAlice, kept.2 pool run done "c1" {0, 1} each⟩

end MastopodFederation.Guarantees.AssetUpdates

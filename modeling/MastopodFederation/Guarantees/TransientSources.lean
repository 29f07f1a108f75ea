import MastopodFederation.Guarantees.MediaPasses
import MastopodFederation.Source.MediaProcessing

/-!
# Sources of media jobs

The image worker deletes its source however the attempt ended, so that an attempt after a
failure finds nothing; the video worker deletes it only after the message for the next stage was
enqueued. The source is there for the next attempt exactly if no failed attempt deleted it
(`source_survives_iff`).
-/
namespace MastopodFederation.Guarantees.TransientSources
open Lib.Calls Source.SecureWorker Source.MediaProcessing MediaPasses

variable {Blob Signal : Type} {env : Environment Blob Signal} {message copy : Message}
  {fates : StepName → Fate} {w : World Blob} {key : String} {stage : Stage}

inductive Redelivers (worker : Source.SecureWorker.Environment) (message : Message) : Message → Prop where
  | same : Redelivers worker message message
  | retried {copy : Message} (dueAtMs firstFailedAtMs : Int) (error : Thrown)
      (before : Redelivers worker message copy) :
      Redelivers worker message (scheduledMessage worker copy dueAtMs firstFailedAtMs error)

structure Attempt where
  message : Message
  fates : StepName → Fate

def works : StepName → Fate := fun _ => .works

def attempt (env : Environment Blob Signal) (stage : Stage) (w : World Blob) (a : Attempt) :
    Option (Except Thrown Unit) × World Blob :=
  run env a.fates (stage.handler env a.message) w

def attempts (env : Environment Blob Signal) (stage : Stage) (w : World Blob)
    (made : List Attempt) : World Blob :=
  made.foldl (fun v a => (attempt env stage v a).2) w

def DeletedAfter (stage : Stage) (key : String) (log : List Logged) : Prop :=
  ∀ before rest, log = before ++ .deleted key :: rest →
    ∃ payload, .enqueued stage.next payload ∈ before

/-- The attempt that goes from one world to the other found the source and enqueued the message for
the next stage, and the source was never deleted before such a message was enqueued. -/
structure Survives (stage : Stage) (key : String) (before final : World Blob) : Prop where
  found : .found key ∈ final.log.drop before.log.length
  enqueued : ∃ payload, .enqueued stage.next payload ∈ final.log.drop before.log.length
  deletedAfter : DeletedAfter stage key final.log

def takesEffect : Fate → Bool
  | .works | .failsAfter => true
  | .fails | .crashes => false

/-- The worker does not crash in these steps, of which one that fails ends the body; adapters
that fail do not. -/
def endsAlive (fates : StepName → Fate) : List StepName → Bool
  | [] => true
  | step :: rest =>
    match fates step with
    | .crashes => false
    | .works => endsAlive fates rest
    | .fails | .failsAfter => if step = .adapters then endsAlive fates rest else true

def imageBody : List StepName :=
  [.scratch, .download, .process, .blurPreview, .upload, .adapters, .enqueue]

def videoBody : List StepName := [.scratch, .download, .process, .upload, .enqueue]

/-- The cleanup of an attempt deletes the source: in the image stage if the worker is still
alive then, in the video stage if every step before it worked. -/
def Deletes (fates : StepName → Fate) : Stage → Prop
  | .image => endsAlive fates imageBody = true ∧ takesEffect (fates .delete) = true
  | .video => (∀ step ∈ videoBody, fates step = .works) ∧ takesEffect (fates .delete) = true

instance (stage : Stage) : Decidable (Deletes fates stage) := by
  cases stage
  · exact inferInstanceAs (Decidable (_ ∧ _))
  · exact inferInstanceAs (Decidable (_ ∧ _))

variable {worker : Source.SecureWorker.Environment}

theorem get_scheduled {dueAtMs firstFailedAtMs : Int} {error : Thrown} {field : String}
    (own : field ∉ [retryAttemptField, retryAtField, retryFirstFailedAtField,
      retryLastErrorCodeField, retryLastErrorMessageField]) :
    (scheduledMessage worker message dueAtMs firstFailedAtMs error).get field =
      message.get field := by
  simp only [List.mem_cons, List.not_mem_nil, or_false, not_or] at own
  obtain ⟨attempt, at_, first, code, text⟩ := own
  unfold scheduledMessage
  dsimp only
  rw [get_set_other _ _ text, get_set_other _ _ code, get_set_other _ _ first,
    get_set_other _ _ at_, get_set_other _ _ attempt]

theorem get_redelivered {field : String}
    (own : field ∉ [retryAttemptField, retryAtField, retryFirstFailedAtField,
      retryLastErrorCodeField, retryLastErrorMessageField])
    (redelivers : Redelivers worker message copy) : copy.get field = message.get field := by
  induction redelivers with
  | same => rfl
  | retried dueAtMs firstFailedAtMs error before ih => exact (get_scheduled own).trans ih

theorem source_redelivered (redelivers : Redelivers worker message copy) :
    fieldOr copy "sourceObjectKey" "" = fieldOr message "sourceObjectKey" "" := by
  unfold fieldOr
  rw [get_redelivered (by decide) redelivers]

theorem processable_redelivered {input : Blob} (redelivers : Redelivers worker message copy) :
    stage.processable env copy input = stage.processable env message input := by
  cases stage with
  | image => rfl
  | video =>
    unfold Stage.processable
    rw [get_redelivered (by decide) redelivers]

theorem run_bind {α β : Type} (x : Prog (Call Blob) (Reply Signal) Thrown α)
    (f : α → Prog (Call Blob) (Reply Signal) Thrown β) :
    run env fates (x.bind f) w =
      match run env fates x w with
      | (none, v) => (none, v)
      | (some (.error e), v) => (some (.error e), v)
      | (some (.ok a), v) => run env fates (f a) v := by
  induction x generalizing w with
  | done outcome => cases outcome <;> rfl
  | call c next ih =>
    simp only [Prog.bind, run]
    cases fates c.step with
    | works | fails | failsAfter => exact ih _
    | crashes => rfl

theorem run_attempt {α : Type} (x : Prog (Call Blob) (Reply Signal) Thrown α) :
    run env fates (x.attempt : Prog (Call Blob) (Reply Signal) Thrown (Except Thrown α)) w =
      ((run env fates x w).1.map .ok, (run env fates x w).2) := by
  induction x generalizing w with
  | done outcome => rfl
  | call c next ih =>
    simp only [Prog.attempt, run]
    cases fates c.step with
    | works | fails | failsAfter => exact ih _
    | crashes => rfl

def AllWork (fates : StepName → Fate) (steps : List StepName) : Prop :=
  ∀ step ∈ steps, fates step = .works ∨ step = .adapters ∧ fates step ≠ .crashes

structure Body (fates : StepName → Fate) (key : String) (steps : List StepName) (w : World Blob)
    (ended : Option (Except Thrown Unit) × World Blob) : Prop where
  alive : ended.1.isSome = endsAlive fates steps
  returned : ended.1 = some (.ok ()) ↔ AllWork fates steps
  kept : ended.2.objects key = w.objects key
  undeleted : ∃ extra, ended.2.log = w.log ++ extra ∧ ∀ k, .deleted k ∉ extra

variable {steps : List StepName}

theorem allWork_cons {step : StepName} : AllWork fates (step :: steps) ↔
      (fates step = .works ∨ step = .adapters ∧ fates step ≠ .crashes) ∧ AllWork fates steps :=
  List.forall_mem_cons

theorem body_done : Body fates key [] w (some (.ok ()), w) :=
  ⟨rfl, ⟨fun _ => nofun, fun _ => rfl⟩, rfl, [], (List.append_nil _).symm, nofun⟩

structure Harmless (key : String) (w v : World Blob) : Prop where
  kept : v.objects key = w.objects key
  undeleted : ∃ extra, v.log = w.log ++ extra ∧ ∀ k, .deleted k ∉ extra

theorem Harmless.refl : Harmless key w w := ⟨rfl, [], (List.append_nil _).symm, nofun⟩

theorem Body.after {v : World Blob}
    {ended : Option (Except Thrown Unit) × World Blob} (harmless : Harmless key w v)
    (body : Body fates key steps v ended) : Body fates key steps w ended := by
  obtain ⟨more, same, pure_⟩ := harmless.undeleted
  obtain ⟨extra, log, clean⟩ := body.undeleted
  refine ⟨body.alive, body.returned, body.kept.trans harmless.kept, more ++ extra, ?_, fun k => ?_⟩
  · rw [log, same, List.append_assoc]
  · rw [List.mem_append, not_or]
    exact ⟨pure_ k, clean k⟩

theorem body_crashes {step : StepName} (fate : fates step = .crashes) :
    Body fates key (step :: steps) w (none, w) where
  alive := by simp [endsAlive, fate]
  returned := by
    rw [allWork_cons]
    constructor
    · exact nofun
    · rintro ⟨works | ⟨-, safe⟩, -⟩
      · exact nomatch fate.symm.trans works
      · exact absurd fate safe
  kept := rfl
  undeleted := (Harmless.refl : Harmless key w w).undeleted

section Steps
variable {c : Call Blob} {next : Reply Signal c → Program Blob Signal Unit} {rest : List StepName}

theorem body_ends (other : c.step ≠ .adapters) (notWorks : fates c.step ≠ .works)
    (alive : fates c.step ≠ .crashes) (e : Thrown) {v : World Blob} (harmless : Harmless key w v) :
    Body fates key (c.step :: rest) w (some (.error e), v) where
  alive := by
    unfold endsAlive
    cases fate : fates c.step with
    | works => exact absurd fate notWorks
    | crashes => exact absurd fate alive
    | fails | failsAfter => simp [other]
  returned := by
    rw [allWork_cons]
    constructor
    · exact nofun
    · rintro ⟨works | ⟨same, -⟩, -⟩
      · exact absurd works notWorks
      · exact absurd same other
  kept := harmless.kept
  undeleted := harmless.undeleted

theorem body_call (other : c.step ≠ .adapters)
    (fails : ∃ e, next (refuse c) = .done (.error e)) (harmless : Harmless key w (answer env w c).2)
    (goes : Body fates key rest (answer env w c).2
      (run env fates (next (answer env w c).1) (answer env w c).2)) :
    Body fates key (c.step :: rest) w (run env fates (.call c next) w) := by
  obtain ⟨e, failed⟩ := fails
  cases fate : fates c.step with
  | works =>
    simp only [run, fate]
    have body := goes.after harmless
    refine ⟨?_, ?_, body.kept, body.undeleted⟩
    · rw [body.alive, endsAlive, fate]
    · rw [body.returned, allWork_cons]
      exact ⟨fun all => ⟨.inl fate, all⟩, fun all => all.2⟩
  | fails =>
    simp only [run, fate, failed]
    exact body_ends other (by simp [fate]) (by simp [fate]) e .refl
  | failsAfter =>
    simp only [run, fate, failed]
    exact body_ends other (by simp [fate]) (by simp [fate]) e harmless
  | crashes =>
    simp only [run, fate]
    exact body_crashes fate

end Steps

theorem body_adapters {url mimeType : String} {buffer : Blob} {rest : List StepName}
    {next : List Signal → Program Blob Signal Unit}
    (goes : ∀ signals, Body fates key rest w (run env fates (next signals) w)) :
    Body fates key (.adapters :: rest) w
      (run env fates (.call (.runSafetyAdapters url buffer mimeType) next) w) := by
  have lifts (signals : List Signal) (alive : fates .adapters ≠ .crashes) :
      Body fates key (.adapters :: rest) w (run env fates (next signals) w) := by
    refine ⟨?_, ?_, (goes signals).kept, (goes signals).undeleted⟩
    · rw [(goes signals).alive, endsAlive]
      cases fate : fates .adapters with
      | crashes => exact absurd fate alive
      | works | fails | failsAfter => rfl
    · rw [(goes signals).returned, allWork_cons]
      exact ⟨fun all => ⟨.inr ⟨rfl, alive⟩, all⟩, fun all => all.2⟩
  cases fate : fates .adapters with
  | works =>
    simp only [run, Call.step, fate]
    exact lifts _ (by simp [fate])
  | fails =>
    simp only [run, Call.step, fate]
    exact lifts _ (by simp [fate])
  | failsAfter =>
    simp only [run, Call.step, fate]
    exact lifts _ (by simp [fate])
  | crashes =>
    simp only [run, Call.step, fate]
    exact body_crashes fate

theorem apart_of_slash {name : String} (slash : '/' ∈ key.toList) (plain : '/' ∉ name.toList) :
    key ≠ name := by
  rintro rfl
  exact plain slash

theorem plain_append {first second : String} (left : '/' ∉ first.toList)
    (right : '/' ∉ second.toList) : '/' ∉ (first ++ second).toList := by
  rw [String.toList_append, List.mem_append, not_or]
  exact ⟨left, right⟩

theorem upload_harmless {uploads : List (Upload Blob)} (apart : ∀ u ∈ uploads, key ≠ u.key) :
    Harmless key w (uploads.foldl World.put w) := by
  induction uploads generalizing w with
  | nil => exact .refl
  | cons u rest ih =>
    have later := ih (w := w.put u) fun v listed => apart v (List.mem_cons_of_mem _ listed)
    refine ⟨later.kept.trans (if_neg (apart u List.mem_cons_self)), later.undeleted⟩

theorem note_harmless {entry : Logged} (quiet : ∀ k, entry ≠ .deleted k) :
    Harmless key w (w.note entry) :=
  ⟨rfl, [entry], rfl, fun k listed => quiet k (List.mem_singleton.mp listed).symm⟩

section Bodies
variable {input : Blob} (slash : '/' ∈ key.toList) (present : w.objects key = some input)
include slash

theorem imageUploads_apart (processed : ProcessedImage Blob) (blurPreview : Blob) :
    ∀ u ∈ imageUploads env processed blurPreview, key ≠ u.key := by
  intro u listed
  have plain := env.sha256_plain processed.buffer
  apply apart_of_slash slash
  unfold imageUploads at listed
  rcases List.mem_append.mp listed with fixed | thumbnail
  · rcases List.mem_pair.mp fixed with rfl | rfl
    · exact plain_append plain (by decide)
    · exact plain_append plain (by decide)
  · obtain ⟨b, -, rfl⟩ := List.mem_map.mp thumbnail
    exact plain_append plain (by decide)

variable {processed : VideoProcessingResult}

theorem videoUpload_apart {mimeType : Option String}
    (read : processVideoFile env input mimeType = .ok processed) :
    ∀ u ∈ videoUpload processed input, key ≠ u.key := by
  intro u listed
  have hash : processed.sha256 = env.sha256 input := by
    unfold processVideoFile at read
    dsimp only at read
    split at read
    · cases read
    · split at read
      · cases read
      · cases read
        rfl
  have plain := env.sha256_plain input
  apply apart_of_slash slash
  rw [videoUpload, List.mem_singleton] at listed
  subst listed
  have extension : '/' ∉ (videoExtensionForMime processed.mimeType).toList := by
    unfold videoExtensionForMime
    split
    · decide
    · split <;> decide
  exact plain_append (plain_append (hash ▸ plain) (by decide)) extension

theorem finishImage_body (processed : ProcessedImage Blob) :
    Body fates key [.blurPreview, .upload, .adapters, .enqueue] w
      (run env fates (finishImage env message processed) w) := by
  refine body_call (c := .generateBlurPreview _) nofun ?_ .refl ?_
  · exact ⟨_, rfl⟩
  refine body_call (c := .upload _) nofun ?_
    (upload_harmless (imageUploads_apart slash processed _)) ?_
  · exact ⟨_, rfl⟩
  apply body_adapters
  intro signals
  refine body_call (c := .enqueue _ _) nofun ?_ (note_harmless nofun) body_done
  exact ⟨_, rfl⟩

include present

omit slash in
theorem download_body {next : Blob → Program Blob Signal Unit} {rest : List StepName}
    (goes : Body fates key rest (w.note (.found key))
      (run env fates (next input) (w.note (.found key)))) :
    Body fates key (.download :: rest) w
      (run env fates (.call (.downloadFromFilebaseToPath key) .done >>= next) w) := by
  have answered : answer env w (.downloadFromFilebaseToPath key) =
      (.ok input, w.note (.found key)) := by simp only [answer, present]
  refine body_call (c := .downloadFromFilebaseToPath key) nofun ?_ ?_ ?_
  · exact ⟨_, rfl⟩
  · rw [answered]
    exact note_harmless nofun
  · rw [answered]
    exact goes

theorem transientImage_body {processed : ProcessedImage Blob}
    (read : env.processImageFile input = .ok processed) :
    Body fates key [.download, .process, .blurPreview, .upload, .adapters, .enqueue] w
      (run env fates (transientImage env message key) w) := by
  apply download_body present
  refine body_call (c := .processImage input) nofun ?_ .refl ?_
  · exact ⟨_, rfl⟩
  simp only [answer, read]
  exact finishImage_body slash processed

theorem transientVideo_body
    (read : processVideoFile env input (message.get "mimeType") = .ok processed) :
    Body fates key [.download, .process, .upload, .enqueue] w
      (run env fates (transientVideo env message key) w) := by
  apply download_body present
  refine body_call (c := .processVideoFile input _) nofun ?_ .refl ?_
  · exact ⟨_, rfl⟩
  simp only [answer, read]
  refine body_call (c := .upload _) nofun ?_ (upload_harmless (videoUpload_apart slash read)) ?_
  · exact ⟨_, rfl⟩
  refine body_call (c := .enqueue _ _) nofun ?_ (note_harmless nofun) body_done
  exact ⟨_, rfl⟩

end Bodies

theorem delete_world {rest : Program Blob Signal Unit}
    (idle : ∀ v : World Blob, (run env fates rest v).2 = v) :
    (run env fates (deleteTransientObject key >>= fun _ => rest) w).2 =
      if takesEffect (fates .delete) then w.delete key else w := by
  change (run env fates (.call (.deleteFromFilebase key) _) w).2 = _
  unfold run
  cases fate : fates .delete with
  | works | fails | failsAfter =>
    simp only [Call.step, fate]
    exact idle _
  | crashes =>
    simp only [Call.step, fate]
    rfl

theorem cleanup_idle (v : World Blob) :
    (run env fates (.call .cleanupWorkerScratchDir .done : Program Blob Signal Unit) v).2 = v := by
  unfold run
  cases fates (Call.step (.cleanupWorkerScratchDir : Call Blob)) <;> rfl

theorem finally_world {body : Program Blob Signal Unit} {cleanup : Bool → Program Blob Signal Unit} :
    (run env fates (finallyDo body cleanup) w).2 =
      match run env fates body w with
      | (none, v) => v
      | (some outcome, v) => (run env fates (cleanup outcome.isOk) v).2 := by
  unfold finallyDo
  rw [run_bind, run_attempt]
  cases ended : run env fates body w with
  | mk outcome v =>
    cases outcome with
    | none => rfl
    | some outcome =>
      dsimp only [Option.map]
      rw [run_bind]
      cases run env fates (cleanup outcome.isOk) v with
      | mk cleaned u => rcases cleaned with _ | _ | _ <;> rfl

def Leaves (fates : StepName → Fate) (stage : Stage) (key : String) (w v : World Blob) : Prop :=
  (¬Deletes fates stage → Harmless key w v) ∧ (Deletes fates stage → v.objects key = none)

theorem deleted_none : (w.delete key).objects key = none := if_pos rfl

theorem filled_of_slash (slash : '/' ∈ key.toList) : key ≠ "" := by
  rintro rfl
  exact nomatch slash

theorem image_leaves_cleaned {v : World Blob}
    {ended : Option (Except Thrown Unit)} (body : Body fates key steps w (ended, v))
    (alive : endsAlive fates imageBody = endsAlive fates steps) (isSome : ended.isSome = true) :
    Leaves fates .image key w (if takesEffect (fates .delete) then v.delete key else v) := by
  have lives : endsAlive fates imageBody = true := by rw [alive, ← body.alive, isSome]
  constructor
  · intro spared
    have idle : takesEffect (fates .delete) = false := by
      by_contra effective
      exact spared ⟨lives, by simpa using effective⟩
    rw [if_neg (by simp [idle])]
    exact ⟨body.kept, body.undeleted⟩
  · rintro ⟨-, effective⟩
    rw [if_pos effective]
    exact deleted_none

section Handlers
variable {input : Blob} (carries : fieldOr message "sourceObjectKey" "" = key)
  (slash : '/' ∈ key.toList) (present : w.objects key = some input)
include carries slash present

theorem image_leaves {processed : ProcessedImage Blob}
    (read : env.processImageFile input = .ok processed) :
    Leaves fates .image key w (run env fates (processImageHandler env message) w).2 := by
  unfold processImageHandler
  dsimp only
  rw [carries, if_neg (filled_of_slash slash)]
  cases fate : fates .scratch with
  | crashes =>
    have stops : endsAlive fates imageBody = false := by simp [imageBody, endsAlive, fate]
    change Leaves fates .image key w (run env fates (.call .createWorkerScratchDir _) w).2
    simp only [run, Call.step, fate]
    exact ⟨fun _ => .refl, fun deletes => nomatch stops.symm.trans deletes.1⟩
  | fails | failsAfter =>
    change Leaves fates .image key w (run env fates (.call .createWorkerScratchDir _) w).2
    simp only [run, Call.step, fate]
    change Leaves fates .image key w (run env fates (deleteTransientObject key >>= fun _ => _) w).2
    rw [delete_world fun v => rfl]
    exact image_leaves_cleaned body_done
      (by simp [imageBody, endsAlive, fate]) rfl
  | works =>
    change Leaves fates .image key w (run env fates (.call .createWorkerScratchDir _) w).2
    simp only [run, Call.step, fate, answer, Prog.attempt, Prog.bind]
    rw [finally_world]
    have body : Body fates key [.download, .process, .blurPreview, .upload, .adapters, .enqueue] w
        (run env fates (transientImage env message key) w) :=
      transientImage_body slash present read
    have begun : endsAlive fates imageBody = endsAlive fates
        [.download, .process, .blurPreview, .upload, .adapters, .enqueue] := by
      rw [imageBody, endsAlive, fate]
    cases ended : run env fates (transientImage env message key) w with
    | mk outcome v =>
      rw [ended] at body
      cases outcome with
      | none =>
        have stops : endsAlive fates imageBody = false := by rw [begun, ← body.alive]; rfl
        exact ⟨fun _ => ⟨body.kept, body.undeleted⟩,
          fun deletes => nomatch stops.symm.trans deletes.1⟩
      | some outcome =>
        dsimp only
        rw [delete_world cleanup_idle]
        exact image_leaves_cleaned body begun rfl

theorem video_leaves {processed : VideoProcessingResult}
    (read : processVideoFile env input (message.get "mimeType") = .ok processed) :
    Leaves fates .video key w (run env fates (processVideoHandler env message) w).2 := by
  unfold processVideoHandler
  dsimp only
  rw [carries, if_neg (filled_of_slash slash)]
  change Leaves fates .video key w (run env fates (.call .createWorkerScratchDir _) w).2
  by_cases fate : fates .scratch = .works
  · simp only [run, Call.step, fate, answer, Prog.bind]
    rw [finally_world]
    have body : Body fates key [.download, .process, .upload, .enqueue] w
        (run env fates (transientVideo env message key) w) :=
      transientVideo_body slash present read
    have begun : (∀ step ∈ videoBody, fates step = .works) ↔
        AllWork fates [.download, .process, .upload, .enqueue] := by
      simp [videoBody, AllWork, fate]
    cases ended : run env fates (transientVideo env message key) w with
    | mk outcome v =>
      rw [ended] at body
      have kept : Harmless key w v := ⟨body.kept, body.undeleted⟩
      have spares (other : outcome ≠ some (.ok ())) : ¬Deletes fates .video := fun deletes =>
        other (body.returned.mpr (begun.mp deletes.1))
      rcases outcome with _ | _ | _
      · exact ⟨fun _ => kept, fun deletes => absurd deletes (spares (by simp))⟩
      · change Leaves fates .video key w (run env fates (.call .cleanupWorkerScratchDir .done) v).2
        rw [cleanup_idle]
        exact ⟨fun _ => kept, fun deletes => absurd deletes (spares (by simp))⟩
      · change Leaves fates .video key w
          (run env fates (deleteTransientObject key >>= fun _ => _) v).2
        rw [delete_world cleanup_idle]
        have worked : ∀ step ∈ videoBody, fates step = .works := begun.mpr (body.returned.mp rfl)
        cases effective : takesEffect (fates .delete) with
        | false => exact ⟨fun _ => kept, fun deletes => by
          cases effective.symm.trans deletes.2⟩
        | true => exact ⟨fun spared => absurd ⟨worked, effective⟩ spared, fun _ => deleted_none⟩
  · have spared : ¬Deletes fates .video := fun deletes =>
      fate (deletes.1 .scratch List.mem_cons_self)
    cases other : fates .scratch with
    | works => exact absurd other fate
    | fails | failsAfter | crashes =>
      simp only [run, Call.step, other]
      exact ⟨fun _ => .refl, fun deletes => absurd deletes spared⟩

theorem attempt_leaves (processable : stage.processable env message input = true) :
    Leaves fates stage key w (attempt env stage w ⟨message, fates⟩).2 := by
  cases stage with
  | image =>
    cases read : env.processImageFile input with
    | error e => simp [Stage.processable, read, Except.isOk, Except.toBool] at processable
    | ok processed => exact image_leaves carries slash present read
  | video =>
    cases read : processVideoFile env input (message.get "mimeType") with
    | error e => simp [Stage.processable, read, Except.isOk, Except.toBool] at processable
    | ok processed => exact video_leaves carries slash present read

theorem attempt_works (processable : stage.processable env message input = true) :
    ∃ payload, (attempt env stage w ⟨message, works⟩).2.log =
      w.log ++ [.found key, .enqueued stage.next payload, .deleted key] := by
  have filled := filled_of_slash slash
  have logs (uploads : List (Upload Blob)) (v : World Blob) :
      (uploads.foldl World.put v).log = v.log := by
    induction uploads generalizing v with
    | nil => rfl
    | cons u rest ih => exact ih (v.put u)
  cases stage with
  | image =>
    cases read : env.processImageFile input with
    | error e => simp [Stage.processable, read, Except.isOk, Except.toBool] at processable
    | ok processed =>
      simp only [attempt, Stage.handler, processImageHandler, carries, if_neg filled]
      simp only [bind, Prog.attempt, Prog.bind, run, works, answer, finallyDo, transientImage,
        present, read, finishImage, deleteTransientObject, Prog.rescue, pure, World.note,
        World.delete, logs, List.append_assoc, List.cons_append, List.nil_append]
      exact ⟨_, rfl⟩
  | video =>
    cases read : processVideoFile env input (message.get "mimeType") with
    | error e => simp [Stage.processable, read, Except.isOk, Except.toBool] at processable
    | ok processed =>
      simp only [attempt, Stage.handler, processVideoHandler, carries, if_neg filled]
      simp only [bind, Prog.attempt, Prog.bind, run, works, answer, finallyDo, transientVideo,
        present, read, deleteTransientObject, Prog.rescue, pure, World.note, World.delete, logs,
        List.append_assoc, List.cons_append, List.nil_append, Except.isOk, Except.toBool, if_true]
      exact ⟨_, rfl⟩

end Handlers

structure Misses (key : String) (w v : World Blob) : Prop where
  gone : v.objects key = none
  unfound : ∃ extra, v.log = w.log ++ extra ∧ .found key ∉ extra

theorem Misses.refl (gone : w.objects key = none) : Misses key w w :=
  ⟨gone, [], (List.append_nil _).symm, nofun⟩

theorem Misses.cleaned (gone : w.objects key = none) :
    Misses key w (if takesEffect (fates .delete) then w.delete key else w) := by
  split
  · exact ⟨deleted_none, [.deleted key], rfl, by simp⟩
  · exact .refl gone

section Absent
variable (carries : fieldOr message "sourceObjectKey" "" = key) (filled : key ≠ "")
  (gone : w.objects key = none)
include gone

theorem download_absent (env : Environment Blob Signal) (fates : StepName → Fate)
    (next : Blob → Program Blob Signal Unit) :
    ∃ outcome, outcome ≠ some (.ok ()) ∧
      run env fates (.call (.downloadFromFilebaseToPath key) .done >>= next) w = (outcome, w) := by
  change ∃ outcome, _ ∧ run env fates (.call (.downloadFromFilebaseToPath key) _) w = _
  simp only [run, answer, gone]
  cases fates (Call.step (.downloadFromFilebaseToPath key : Call Blob)) with
  | works => exact ⟨some (.error (.other "NoSuchKey")), nofun, rfl⟩
  | fails | failsAfter => exact ⟨some (.error (.other "failed")), nofun, rfl⟩
  | crashes => exact ⟨none, nofun, rfl⟩

include carries filled

theorem attempt_misses (env : Environment Blob Signal) (stage : Stage) (fates : StepName → Fate) :
    Misses key w (attempt env stage w ⟨message, fates⟩).2 := by
  cases stage with
  | image =>
    obtain ⟨outcome, -, ended⟩ := download_absent gone env fates
      fun input => .call (.processImage input) .done >>= finishImage env message
    unfold attempt Stage.handler processImageHandler
    dsimp only
    rw [carries, if_neg filled]
    change Misses key w (run env fates (.call .createWorkerScratchDir _) w).2
    cases fate : fates .scratch with
    | crashes =>
      simp only [run, Call.step, fate]
      exact .refl gone
    | fails | failsAfter =>
      simp only [run, Call.step, fate]
      change Misses key w (run env fates (deleteTransientObject key >>= fun _ => _) w).2
      rw [delete_world fun v => rfl]
      exact .cleaned gone
    | works =>
      simp only [run, Call.step, fate, answer, Prog.attempt, Prog.bind]
      rw [finally_world]
      change Misses key w (match run env fates (transientImage env message key) w with
        | (none, v) => v
        | (some outcome, v) => _)
      rw [show run env fates (transientImage env message key) w = (outcome, w) from ended]
      cases outcome with
      | none => exact .refl gone
      | some outcome =>
        dsimp only
        rw [delete_world cleanup_idle]
        exact .cleaned gone
  | video =>
    obtain ⟨outcome, failed, ended⟩ := download_absent gone env fates
      fun input => .call (.processVideoFile input (message.get "mimeType")) .done >>=
        fun processed => .call (.upload (videoUpload processed input)) .done >>= fun uploaded =>
          .call (.enqueue renditionVideoStream (videoPayload env message processed uploaded.head?))
            .done
    unfold attempt Stage.handler processVideoHandler
    dsimp only
    rw [carries, if_neg filled]
    change Misses key w (run env fates (.call .createWorkerScratchDir _) w).2
    cases fate : fates .scratch with
    | crashes | fails | failsAfter =>
      simp only [run, Call.step, fate]
      exact .refl gone
    | works =>
      simp only [run, Call.step, fate, answer, Prog.bind]
      rw [finally_world]
      rw [show run env fates (transientVideo env message key) w = (outcome, w) from ended]
      rcases outcome with _ | _ | _
      · exact .refl gone
      · change Misses key w (run env fates (.call .cleanupWorkerScratchDir .done) w).2
        rw [cleanup_idle]
        exact .refl gone
      · exact absurd rfl failed

end Absent

section Sequences
variable {worker : Source.SecureWorker.Environment} {input : Blob} {made : List Attempt}
  (carries : fieldOr message "sourceObjectKey" "" = key) (slash : '/' ∈ key.toList)
  (redelivered : ∀ a ∈ made, Redelivers worker message a.message)
include carries slash redelivered

theorem attempts_miss (gone : w.objects key = none) : (attempts env stage w made).objects key = none := by
  induction made generalizing w with
  | nil => exact gone
  | cons a rest ih =>
    have copied := (source_redelivered (redelivered a List.mem_cons_self)).trans carries
    exact ih (fun b later => redelivered b (List.mem_cons_of_mem _ later))
      (attempt_misses copied (filled_of_slash slash) gone env stage a.fates).gone

variable (present : w.objects key = some input)
  (processable : stage.processable env message input = true)
include present processable

theorem attempts_keep (spared : ∀ a ∈ made, ¬Deletes a.fates stage) :
    Harmless key w (attempts env stage w made) := by
  induction made generalizing w with
  | nil => exact .refl
  | cons a rest ih =>
    have copy := redelivered a List.mem_cons_self
    have first : Harmless key w (attempt env stage w a).2 :=
      (attempt_leaves ((source_redelivered copy).trans carries) slash present
        ((processable_redelivered copy).trans processable)).1 (spared a List.mem_cons_self)
    have later := ih (fun b listed => redelivered b (List.mem_cons_of_mem _ listed))
      (first.kept.trans present) fun b listed => spared b (List.mem_cons_of_mem _ listed)
    obtain ⟨one, log, clean⟩ := first.undeleted
    obtain ⟨more, log', clean'⟩ := later.undeleted
    refine ⟨later.kept.trans first.kept, one ++ more, ?_, fun k => ?_⟩
    · change (attempts env stage (attempt env stage w a).2 rest).log = _
      rw [log', log, List.append_assoc]
    · rw [List.mem_append, not_or]
      exact ⟨clean k, clean' k⟩

theorem attempts_gone {a : Attempt} (listed : a ∈ made) (deletes : Deletes a.fates stage) :
    (attempts env stage w made).objects key = none := by
  induction made generalizing w with
  | nil => nomatch listed
  | cons b rest ih =>
    have copy := redelivered b List.mem_cons_self
    have others : ∀ c ∈ rest, Redelivers worker message c.message :=
      fun c later => redelivered c (List.mem_cons_of_mem _ later)
    have leaves : Leaves b.fates stage key w (attempt env stage w b).2 :=
      attempt_leaves ((source_redelivered copy).trans carries) slash present
        ((processable_redelivered copy).trans processable)
    change (attempts env stage (attempt env stage w b).2 rest).objects key = none
    by_cases first : Deletes b.fates stage
    · exact attempts_miss carries slash others (leaves.2 first)
    · rcases List.mem_cons.mp listed with rfl | later
      · exact absurd deletes first
      · exact ih others ((leaves.1 first).kept.trans present) later

end Sequences

/-- After any attempts on copies of the message, an attempt in which every step works finds the
source, enqueues the message for the next stage and deletes the source only then, exactly
if no attempt before it deleted the source. -/
theorem source_survives_iff (env : Environment Blob Signal) (worker : Source.SecureWorker.Environment)
    (stage : Stage) (message : Message) (w : World Blob) (key : String) (input : Blob)
    (made : List Attempt) (last : Message)
    (carries : fieldOr message "sourceObjectKey" "" = key) (transient : '/' ∈ key.toList)
    (present : w.objects key = some input)
    (processable : stage.processable env message input = true) (fresh : w.log = [])
    (redelivered : ∀ a ∈ made, Redelivers worker message a.message)
    (again : Redelivers worker message last) :
    Survives stage key (attempts env stage w made)
        (attempt env stage (attempts env stage w made) ⟨last, works⟩).2 ↔
      ∀ a ∈ made, ¬Deletes a.fates stage := by
  have copied := (source_redelivered again).trans carries
  constructor
  · intro survives a listed deletes
    have gone := attempts_gone carries transient redelivered present processable listed deletes
    obtain ⟨extra, log, unfound⟩ :=
      (attempt_misses copied (filled_of_slash transient) gone env stage works).unfound
    have found := survives.found
    rw [log, List.drop_left] at found
    exact unfound found
  · intro spared
    have kept := attempts_keep carries transient redelivered present processable spared
    obtain ⟨payload, log⟩ := attempt_works copied transient (kept.kept.trans present)
      ((processable_redelivered again).trans processable)
    refine ⟨?_, ⟨payload, ?_⟩, ?_⟩
    · rw [log, List.drop_left]
      exact List.mem_cons_self
    · rw [log, List.drop_left]
      exact List.mem_cons_of_mem _ List.mem_cons_self
    · intro before rest same
      obtain ⟨extra, earlier, clean⟩ := kept.undeleted
      rw [fresh, List.nil_append] at earlier
      have first : .deleted key ∉ (attempts env stage w made).log ++
          [.found key, .enqueued stage.next payload] := by
        rw [earlier]
        simp [clean]
      rw [log, show ([.found key, .enqueued stage.next payload, .deleted key] : List Logged) =
        [.found key, .enqueued stage.next payload] ++ [.deleted key] from rfl,
        ← List.append_assoc] at same
      obtain ⟨rfl, -⟩ := (List.append_cons_inj_of_notMem first List.not_mem_nil).mp same
      exact ⟨payload, List.mem_append_right _ (List.mem_cons_of_mem _ List.mem_cons_self)⟩

def tools : Environment Nat Unit where
  processImageFile input := .ok ⟨input, some 8, some 8, none⟩
  generateBlurPreview input := input
  sha256 input := String.ofList (List.replicate input 'a')
  sha256_plain input := by simp
  byteLength _ := 1
  fromBase64 _ := 0
  cidOf _ := none
  buildCanonicalMediaUrl key := key
  buildGatewayUrl cid := cid
  parseSafetySignals _ := []
  serializeSafetySignals _ := "[]"
  adapterSignals _ _ _ := []

def plainWorker : Source.SecureWorker.Environment := ⟨fun ms => toString ms, fun _ => ""⟩

def sourceKey : String := "transient/trace/0"

def uploaded : Message := ⟨0, [("sourceObjectKey", sourceKey), ("mimeType", "video/mp4")]⟩

def stored : World Nat := ⟨fun key => if key = sourceKey then some 1 else none, []⟩

def queueDown : Attempt := ⟨uploaded, fun step => if step = .enqueue then .fails else .works⟩

/-- The attempt throws because the next stage could not be enqueued, and its cleanup takes the
source away from the attempt that follows. -/
theorem source_destroyed :
    (attempt tools .image stored queueDown).1 ≠ some (.ok ()) ∧
      ¬Survives .image sourceKey (attempts tools .image stored [queueDown])
        (attempt tools .image (attempts tools .image stored [queueDown]) ⟨uploaded, works⟩).2 := by
  constructor
  · exact nofun
  · intro survives
    have missed : (attempt tools .image (attempts tools .image stored [queueDown])
        ⟨uploaded, works⟩).2.log.drop (attempts tools .image stored [queueDown]).log.length =
          [.deleted sourceKey] := by decide +kernel
    have found := survives.found
    rw [missed] at found
    exact absurd found (by decide)

theorem source_survives_iff_video :
    Survives .video sourceKey (attempts tools .video stored [queueDown])
      (attempt tools .video (attempts tools .video stored [queueDown]) ⟨uploaded, works⟩).2 :=
  (source_survives_iff tools plainWorker .video uploaded stored sourceKey 1 [queueDown] uploaded rfl
    (by decide) rfl rfl rfl (fun a listed => List.mem_singleton.mp listed ▸ .same) .same).mpr
    (by decide)

end MastopodFederation.Guarantees.TransientSources

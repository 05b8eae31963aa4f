import FunctionForge.Proofs.Run.Written

/-!
# Duplicates in a run

The services of a run that can be used have their turns one after the other, and each finds the
registry that the ones before it leave, whatever becomes of what they write
(`exists_turns_of_attempts`).  So all that is known of such services holds of a run of any
configuration (`duplicates_of_runAll`): later things take the place of earlier ones, or the first
thing of a name stays, in the order of the configuration.  Where it stays, no two reported files
have one path, and what is counted as written can only be lost to a file of another path that leads
to the same place (`read_of_runAll_once`).
-/

namespace FunctionForge.Run

open Files (FileTree Path)
open Model (Entity)

variable {ε : Type} {generator : Generator ε}

/-- The services among the attempts of a run, those left out that cannot be used. -/
def services (run : List Attempt) : List Stage :=
  run.filterMap Except.toOption

/-- The files of the services are the files of the attempts. -/
theorem flatMap_kept_services (run : List Attempt) :
    (services run).flatMap (Stage.kept · generator) = run.flatMap (Attempt.reported generator) := by
  induction run with
  | nil => rfl
  | cons attempt rest ih =>
    rw [List.flatMap_cons, ← ih]
    cases attempt with
    | error cause => rfl
    | ok stage => rfl

/-- The services of a run have their turns one after the other, with the registry that the ones
before them leave. -/
theorem exists_turns_of_attempts (state : RunState)
    (targets : List (Except ConfigError ServiceTarget)) :
    ∃ turns : List Turn, turns.map Turn.target = targets.filterMap Except.toOption ∧
      services (attempts generator state targets) = stages generator state.registry turns := by
  induction targets generalizing state with
  | nil => exact ⟨[], rfl, rfl⟩
  | cons target rest ih =>
    obtain ⟨turns, htargets, hstages⟩ := ih (state.step generator target)
    cases target with
    | error cause => exact ⟨turns, htargets, hstages⟩
    | ok target =>
      -- Writing the files changes the tree, and leaves the registry as the service left it.
      rw [registry_step] at hstages
      refine ⟨⟨state.files, target⟩ :: turns, ?_, ?_⟩
      · rw [List.map_cons, htargets]
        rfl
      · rw [stages, Stage.next, ← hstages]
        rfl

/-- The policy for duplicates holds throughout a run.  If later things take the place of earlier
ones, every service is handed all of its models and comes to what it comes to with a fresh registry,
and no file of it is dropped.  If the first thing of a name stays, no two models that are handed out
have one name and no two files that are reported have one path; a model is left out exactly if one
of the services before it takes its name; and the files that are reported are the first ones of each
path that were rendered, unless a model has the name of a path. -/
theorem duplicates_of_runAll (files : FileTree) (config : Config) (base : Path)
    {outcome : RunOutcome} (h : runAll files generator config base = .ok outcome) :
    ∃ mode, config.mode = .ok mode ∧
      let run := services (attempts generator (.start files mode) (config.targets base))
      run.map (fun stage => stage.turn.target) =
        (config.targets base).filterMap Except.toOption ∧
      (mode = .overwrite → ∀ stage ∈ run, stage.handed = stage.turn.models ∧
        stage.result generator = (stage.turn.outcome generator (.fresh .overwrite)).result ∧
        stage.kept generator = stage.rendered generator) ∧
      (mode = .once →
        ((run.flatMap Stage.handed).map Entity.name).Nodup ∧
        ((run.flatMap (Stage.kept · generator)).map fun file => file.path.text).Nodup ∧
        (∀ before stage after, run = before ++ stage :: after → ∀ entity ∈ stage.turn.models,
          entity ∉ stage.handed ↔
            ∃ earlier ∈ before, earlier.turn.Takes generator earlier.registry entity.name) ∧
        ((∀ entity ∈ run.flatMap Stage.handed, ∀ file ∈ run.flatMap (Stage.rendered · generator),
            entity.name ≠ file.path.text) →
          run.flatMap (Stage.kept · generator) =
            firsts (fun file => file.path.text) (run.flatMap (Stage.rendered · generator)))) := by
  rw [runAll] at h
  obtain ⟨mode, hmode, -⟩ := bind_eq_ok.mp h
  obtain ⟨turns, htargets, hstages⟩ := @exists_turns_of_attempts ε generator (.start files mode)
    (config.targets base)
  have hregistry : (RunState.start files mode).registry = .fresh mode := rfl
  rw [hregistry] at hstages
  refine ⟨mode, hmode, ?_⟩
  intro run
  have hrun : run = stages generator (.fresh mode) turns := hstages
  refine ⟨?_, ?_, ?_⟩
  · have hturns : run.map Stage.turn = turns := by rw [hrun, map_turn_stages]
    rw [← htargets, ← hturns, List.map_map]
    rfl
  · rintro rfl stage hs
    have hoverwrite : stage.registry.mode = .overwrite := mode_of_mem_stages (hrun ▸ hs)
    exact ⟨Stage.handed_of_overwrite hoverwrite, result_of_overwrite hoverwrite rfl,
      Stage.kept_of_overwrite hoverwrite⟩
  · rintro rfl
    rw [hrun]
    exact ⟨nodup_handed_stages rfl, nodup_kept_stages rfl,
      fun _ _ _ hsplit _ hm => not_mem_handed_iff hsplit hm, kept_stages_fresh⟩

/-- If the first thing of a name stays, a file that is counted as written is read when the run is
over, unless a file of another path leads to its place. -/
theorem read_of_runAll_once (files : FileTree) (config : Config) (base : Path)
    {outcome : RunOutcome} (h : runAll files generator config base = .ok outcome)
    (honce : config.mode = .ok .once) {attempt : Attempt} {report : ServiceReport}
    {file : GeneratedFile} {names : List String}
    (hm : attempt ∈ attempts generator (.start files .once) (config.targets base))
    (hending : attempt.ending generator = .written report) (hf : file ∈ report.files)
    (hlead : outcome.files.LeadsTo file.path names)
    (hother : ∀ other ∈ (attempts generator (.start files .once) (config.targets base)).flatMap
      (Attempt.reported generator), other.path.text ≠ file.path.text →
        ¬outcome.files.LeadsTo other.path names) :
    outcome.files.read file.path = .ok file.content := by
  obtain ⟨mode, hmode, hread⟩ := read_of_runAll files generator config base h
  obtain rfl := Except.ok.inj (honce.symm.trans hmode)
  obtain ⟨earlier, later, hsplit⟩ := List.append_of_mem hm
  obtain ⟨before, after, hfiles⟩ := List.append_of_mem hf
  have hreported : attempt.reported generator = report.files := Attempt.reported_of_written hending
  -- The path of the file comes once, so that what is written behind it has another one.
  obtain ⟨turns, -, hstages⟩ := @exists_turns_of_attempts ε generator (.start files .once)
    (config.targets base)
  have hnodup : (((attempts generator (.start files .once) (config.targets base)).flatMap
      (Attempt.reported generator)).map fun file => file.path.text).Nodup := by
    rw [← flatMap_kept_services, hstages]
    exact nodup_kept_stages rfl
  refine hread earlier attempt later report before file after names hsplit hending hfiles hlead ?_
  intro other ho
  have hall : (attempts generator (.start files .once) (config.targets base)).flatMap
      (Attempt.reported generator) = (earlier.flatMap (Attempt.reported generator) ++ before) ++
        file :: (after ++ later.flatMap (Attempt.reported generator)) := by
    rw [hsplit, List.flatMap_append, List.flatMap_cons, hreported, hfiles, List.append_assoc,
      List.append_assoc, List.cons_append]
  rw [hall] at hnodup hother
  refine hother other (List.mem_append_right _ (List.mem_cons_of_mem _ ho)) fun hsame => ?_
  rw [List.map_append, List.map_cons] at hnodup
  have hbehind := (List.nodup_cons.mp (List.nodup_append'.mp hnodup).2.1).1
  exact hbehind (List.mem_map.mpr ⟨other, ho, hsame⟩)

end FunctionForge.Run

import CommandShell.Job.Basic

/-!
Preparing a pipeline. A stage is prepared when no word and no target of it has a NUL byte,
and a pipeline when all of its stages are. The programs are chosen on the machine that the
job begins on, so nothing that a stage does can give a later one another program.
-/
namespace CommandShell

theorem checkWord_eq_ok {word : Text} : checkWord word = .ok () ↔ 0 ∉ encode word := by
  unfold checkWord
  cases found : (encode word).findIdx? (· == 0) with
  | none =>
      have clean : 0 ∉ encode word := fun inside => by
        simpa using List.findIdx?_eq_none_iff.mp found 0 inside
      simp [clean]
  | some position =>
      have hit : (encode word).any (· == 0) = true := by
        rw [← List.findIdx?_isSome, found]
        rfl
      have dirty : 0 ∈ encode word := by simpa using hit
      simp [dirty]

theorem checkWords_eq_ok {words : List Text} :
    checkWords words = .ok () ↔ ∀ word ∈ words, 0 ∉ encode word := by
  induction words with
  | nil => simp [checkWords]
  | cons word rest ih =>
      unfold checkWords
      cases checked : checkWord word with
      | error trouble =>
          have dirty : ¬ 0 ∉ encode word := by
            rw [← checkWord_eq_ok, checked]
            simp
          simp only [List.mem_cons, forall_eq_or_imp, dirty, false_and, reduceCtorEq]
      | ok _ =>
          simp only [ih, List.mem_cons, forall_eq_or_imp, checkWord_eq_ok.mp checked, not_false_eq_true,
            true_and]

namespace Stage

def texts (stage : Stage) : List Text :=
  stage.argv ++ stage.input.toList ++ stage.output.toList

def prepared (stage : Stage) (shell : Shell) (machine : Machine) : PreparedStage :=
  ⟨stage.argv, programOf shell machine stage.name, stage.input, stage.output⟩

end Stage

/-- No word and no target of the pipeline has a NUL byte. -/
def Pipeline.Clean (pipeline : Pipeline) : Prop :=
  ∀ stage ∈ pipeline.stages, ∀ text ∈ stage.texts, 0 ∉ encode text

instance (pipeline : Pipeline) : Decidable pipeline.Clean :=
  inferInstanceAs (Decidable (∀ stage ∈ pipeline.stages, ∀ text ∈ stage.texts, 0 ∉ encode text))

variable {shell : Shell} {machine : Machine}

theorem prepare_eq_ok {stage : Stage} {prepared : PreparedStage} :
    prepare shell machine stage = .ok prepared ↔
      (∀ text ∈ stage.texts, 0 ∉ encode text) ∧ stage.prepared shell machine = prepared := by
  rw [← checkWords_eq_ok]
  unfold prepare Stage.texts Stage.prepared
  cases checkWords (stage.argv ++ stage.input.toList ++ stage.output.toList) <;> simp

theorem prepareAll_eq_ok {stages : List Stage} {prepared : List PreparedStage} :
    prepareAll shell machine stages = .ok prepared ↔
      (∀ stage ∈ stages, ∀ text ∈ stage.texts, 0 ∉ encode text) ∧
        stages.map (·.prepared shell machine) = prepared := by
  induction stages generalizing prepared with
  | nil => simp [prepareAll]
  | cons stage rest ih =>
      unfold prepareAll
      cases first : prepare shell machine stage with
      | error trouble =>
          have dirty : ¬ ∀ text ∈ stage.texts, 0 ∉ encode text := by
            intro clean
            cases first.symm.trans (prepare_eq_ok.mpr ⟨clean, rfl⟩)
          simp [dirty]
      | ok own =>
          obtain ⟨clean, rfl⟩ := prepare_eq_ok.mp first
          cases others : prepareAll shell machine rest with
          | error trouble =>
              have dirty : ¬ ∀ other ∈ rest, ∀ text ∈ other.texts, 0 ∉ encode text := by
                intro whole
                cases others.symm.trans (ih.mpr ⟨whole, rfl⟩)
              simp [dirty]
          | ok prepared =>
              obtain ⟨whole, rfl⟩ := ih.mp others
              rw [and_iff_right (List.forall_mem_cons.mpr ⟨clean, whole⟩), List.map_cons]
              simp only [Except.ok.injEq]

end CommandShell

import Pipework.Proofs.Attribution.Keeping
import Pipework.Proofs.Mode.Agreement

/-! # Errors are attributed once, to the stage that failed

The pulls of a run can be told: there are notes of everything that the own stages of modules returned
meanwhile, and each error that is pulled is the one that some module's own stage returned bare, with
the id of that module and the number of answers which that very stage had returned before. Only the
run itself adds timeouts, where it may.
-/

namespace Pipework

variable {setting : Setting} {known : Pipe → Prop} {mode : Mode}

/-- What a stage with nothing around it comes to if it is asked again as long as somebody waits for it,
with what is noted meanwhile. -/
inductive Stage.Told (setting : Setting) : Stage → World → Poll → Stage → World → List Note → Prop
  | asked {stage next : Stage} {world later : World} {poll : Poll} {notes : List Note}
      (h : Scene.Tells setting [] [] ⟨stage, [], world.fresh⟩ poll ⟨next, [], later⟩ notes) :
      Told setting stage world poll next later notes
  | again {stage waiting next : Stage} {world middle later : World} {poll : Poll} (time : Nat)
      {notes rest : List Note}
      (h : Scene.Tells setting [] [] ⟨stage, [], world.fresh⟩ .pending ⟨waiting, [], middle⟩ notes)
      (hrest : Told setting waiting { middle with clock := max middle.clock time } poll next later
        rest) :
      Told setting stage world poll next later (notes ++ rest)

namespace PipeRun

/-- What pulls in a row come to, whatever happens to the world between them. -/
inductive Pulled (setting : Setting) : PipeRun → List (Option Answer) → PipeRun → Prop
  | nil (run : PipeRun) : Pulled setting run [] run
  | cons {run next last : PipeRun} {budget : Nat} {world later : World} {answer : Option Answer}
      {answers : List (Option Answer)}
      (h : (run.next setting budget).run world = some ((answer, next), later))
      (hrest : Pulled setting next answers last) : Pulled setting run (answer :: answers) last

/-- Pulls in a row with what is noted meanwhile: once the end is remembered nothing is asked any more;
until then a pull gives what its stage comes to, or a timeout if the stage still has to wait. -/
inductive Told (setting : Setting) : PipeRun → List (Option Answer) → PipeRun → List Note → Prop
  | nil (run : PipeRun) : Told setting run [] run []
  | finished {run last : PipeRun} {answers : List (Option Answer)} {notes : List Note}
      (hfinished : run.finished = true) (hrest : Told setting run answers last notes) :
      Told setting run (none :: answers) last notes
  | asked {run last : PipeRun} {stage : Stage} {world later : World} {poll : Poll}
      {answers : List (Option Answer)} {notes rest : List Note} (hopen : run.finished = false)
      (h : run.stage.Told setting world poll stage later notes)
      (hlate : poll = .pending → run.limit ≠ none)
      (hrest : Told setting (run.settle stage poll.awaited).2 answers last rest) :
      Told setting run ((run.settle stage poll.awaited).1 :: answers) last (notes ++ rest)

/-- The error comes of the run itself. -/
def TimesOut (run : PipeRun) (error : PipeError) : Prop :=
  run.limit ≠ none ∧ ∃ index, error = .timeout run.output index

variable {stage next : Stage} {run last : PipeRun} {budget : Nat} {world later : World}
  {awaited : Awaited} {poll : Poll} {answers : List (Option Answer)} {log notes : List Note}

/-- The error that a pull gives is the one that came of the stage, or the timeout of a stage that
still had to wait. -/
theorem error_of_settle {error : PipeError}
    (h : (run.settle stage poll.awaited).1 = some (.error error)) :
    poll = .answer (.error error) ∨ poll = .pending ∧ error = .timeout run.output run.produced := by
  cases poll with
  | pending =>
      cases h
      exact .inr ⟨rfl, rfl⟩
  | ended => cases h
  | answer answer =>
      cases h
      exact .inl rfl

theorem pulled_of_pullMany (count : Nat)
    (h : (pullMany setting budget count run).run world = some ((answers, last), later)) :
    Pulled setting run answers last := by
  induction count generalizing run world answers with
  | zero =>
      cases h
      exact .nil _
  | succ count ih =>
      obtain ⟨⟨answer, next⟩, middle, hnext, h⟩ := run_bind_eq_some_iff.mp h
      obtain ⟨⟨rest, reached⟩, behind, hrest, hpure⟩ := run_bind_eq_some_iff.mp h
      cases hpure
      exact .cons hnext (ih hrest)

section Closed

variable (hcloses : setting.registry.Closes known)

include hcloses

/-- Asking keeps a stage in order, and what comes of it is attributed. -/
theorem accounted_of_tells (halone : stage.Alone known mode)
    (haccounted : stage.Accounted setting log true [])
    (h : Scene.Tells setting [] [] ⟨stage, [], world⟩ poll ⟨next, [], later⟩ notes) :
    next.Alone known mode ∧ next.Accounted setting (log ++ notes) true [] ∧
      poll.Accounted setting (log ++ notes) true := by
  obtain ⟨hnext, -⟩ := h.gives.keeps hcloses (halone world)
  obtain ⟨hafter, hpoll⟩ := h.accounted hcloses (halone world) nofun ⟨haccounted, nofun⟩
  exact ⟨fun elsewhere => hnext.elsewhere elsewhere, hafter.stage, hpoll⟩

/-- However long a stage is awaited, what was noted meanwhile accounts for it. -/
theorem accounted_of_told (halone : stage.Alone known mode)
    (haccounted : stage.Accounted setting log true [])
    (h : stage.Told setting world poll next later notes) :
    next.Alone known mode ∧ next.Accounted setting (log ++ notes) true [] ∧
      poll.Accounted setting (log ++ notes) true := by
  induction h generalizing log with
  | asked h => exact accounted_of_tells hcloses halone haccounted h
  | again _ h _ ih =>
      obtain ⟨hwaiting, hmiddle, -⟩ := accounted_of_tells hcloses halone haccounted h
      rw [← List.append_assoc]
      exact ih hwaiting hmiddle

/-- What awaiting a stage comes to can be told. The induction is on how often the stage may be
asked. -/
theorem told_of_await (halone : stage.Alone known mode) (deadline : Option Nat) (asks : Nat)
    (h : (Awaited.await (askOutput setting budget) deadline asks stage).run world =
      some ((awaited, next), later)) :
    ∃ poll notes, awaited = poll.awaited ∧ (poll = .pending → deadline ≠ none) ∧
      stage.Told setting world poll next later notes := by
  induction asks generalizing stage world with
  | zero => cases h
  | succ asks ih =>
      obtain ⟨poll, reached, middle, hask, hsettled⟩ := run_await_succ.mp h
      obtain ⟨hgives, hreached⟩ := gives_of_askOutput hcloses halone hask
      obtain ⟨notes, htells⟩ := hgives.tells [] []
      cases poll with
      | ended =>
          obtain ⟨rfl, rfl, rfl⟩ := hsettled
          exact ⟨.ended, notes, rfl, by simp, .asked htells⟩
      | answer answer =>
          obtain ⟨rfl, rfl, rfl⟩ := hsettled
          exact ⟨.answer answer, notes, rfl, by simp, .asked htells⟩
      | pending =>
          rw [Settled] at hsettled
          split at hsettled
          next hlate =>
            -- The deadline has passed, so there was one.
            obtain ⟨rfl, rfl, rfl⟩ := hsettled
            refine ⟨.pending, notes, rfl, fun _ hnone => ?_, .asked htells⟩
            rw [hnone] at hlate
            cases hlate
          · obtain ⟨woken, hwait, hrest⟩ := hsettled
            obtain ⟨time, -, rfl⟩ := run_waitFor.mp hwait
            obtain ⟨poll, rest, hawaited, hdeadline, hrest⟩ := ih hreached hrest
            exact ⟨poll, notes ++ rest, hawaited, hdeadline, .again time htells hrest⟩

/-- The pulls of a run can be told, and each error among them is accounted for. The induction is on
the pulls; between them everything that was noted accounts for the stage. -/
theorem Pulled.told (h : Pulled setting run answers last) (halone : run.stage.Alone known mode)
    (haccounted : run.stage.Accounted setting log true []) :
    ∃ notes, Told setting run answers last notes ∧ ∀ error, some (.error error) ∈ answers →
      error.Attributed setting (log ++ notes) ∨ run.TimesOut error := by
  induction h generalizing log with
  | nil run => exact ⟨[], .nil run, nofun⟩
  | @cons run next last budget world later answer answers hnext _ ih =>
      cases hfinished : run.finished with
      | true =>
          rw [run_next_finished hfinished] at hnext
          cases hnext
          obtain ⟨notes, htold, herrors⟩ := ih halone haccounted
          refine ⟨notes, .finished hfinished htold, fun error herror => herrors error ?_⟩
          simpa using herror
      | false =>
          obtain ⟨awaited, stage, hawait, hresult⟩ := (run_next hfinished).mp hnext
          obtain ⟨poll, notes, rfl, hdeadline, htold⟩ := told_of_await hcloses halone _ budget hawait
          obtain ⟨hstage, hafter, hpoll⟩ := accounted_of_told hcloses halone haccounted htold
          -- What the run keeps of this pull is the stage that the notes account for.
          obtain ⟨hanswer, hrun⟩ := Prod.ext_iff.mp hresult
          dsimp only at hanswer hrun
          rw [← settle_stage run stage poll.awaited, ← hrun] at hstage hafter
          obtain ⟨rest, hrest, herrors⟩ := ih hstage hafter
          have hlate : poll = .pending → run.limit ≠ none := by
            intro hpending hnone
            exact hdeadline hpending (congrArg _ hnone)
          have hall := Told.asked hfinished htold hlate (hrun ▸ hrest)
          rw [← hanswer] at hall
          refine ⟨notes ++ rest, hall, fun error herror => ?_⟩
          rw [← List.append_assoc]
          rcases List.mem_cons.mp herror with hfirst | hothers
          · rcases error_of_settle (hfirst.trans hanswer).symm with hgiven | ⟨hpending, rfl⟩
            · exact .inl ((hpoll.attributed hgiven).append rest)
            · exact .inr ⟨hlate hpending, run.produced, rfl⟩
          · refine (herrors error hothers).imp_right fun htimeout => ?_
            rw [hrun, TimesOut, settle_limit, settle_output] at htimeout
            exact htimeout

variable {context : RunContext} {pipe : Pipe} {limit : Option Nat} {middle : World}

omit hcloses in
/-- A pipe runs if its output can be assembled; what limits the run plays no part in it. -/
theorem run_ofPipe_eq_ok :
    (ofPipe setting mode limit context pipe).run.run world = some (.ok run, middle) ↔
      ∃ stage, ((setting.workshop mode context).output pipe).run.run world =
          some (.ok stage, middle) ∧
        run = .start mode limit ((pipe.plan.last?.map Plan.Step.id).getD default) stage := by
  rw [ofPipe, run_run_bind_eq_some_iff]
  constructor
  · rintro (⟨error, -, ⟨⟩⟩ | ⟨stage, between, houtput, hpure⟩)
    cases hpure
    exact ⟨stage, houtput, rfl⟩
  · rintro ⟨stage, houtput, rfl⟩
    exact .inr ⟨stage, middle, houtput, rfl⟩

/-- The stage that a run starts with is one of a pipe, and fresh. -/
theorem alone_of_ofPipe (hpipe : known pipe)
    (h : (ofPipe setting mode limit context pipe).run.run world = some (.ok run, middle)) :
    ∃ stage, run = .start mode limit ((pipe.plan.last?.map Plan.Step.id).getD default) stage ∧
      stage.Alone known mode ∧ stage.Accounted setting [] true [] := by
  obtain ⟨stage, houtput, rfl⟩ := run_ofPipe_eq_ok.mp h
  have htwin := (setting.workshop_twin hcloses mode mode context).output hpipe
  obtain ⟨_, _, -, hagree, -⟩ := htwin .rfl houtput
  have hfresh := ((setting.workshop_buildsFresh hcloses mode context).output hpipe).outcome houtput
  refine ⟨stage, rfl, fun elsewhere => ?_, hfresh [] [] fun _ _ => rfl⟩
  cases hagree with
  | ok hstage => exact ⟨Nat.zero_le 0, hstage.left, .nil, .rfl⟩

/-- However often the output of a pipe that could be assembled is pulled at, and whatever happens
between the pulls, each error names the module whose own stage returned it bare, with the number of
answers which that stage had returned before; only where the time for a record is limited, which it is
in the asynchronous mode only, the run may give timeouts of its own. The pulls up to an error are pulls
in a row themselves, so that what it is attributed to has been noted by then. -/
theorem errors_attributed_once (hpipe : known pipe)
    (hrun : (ofPipe setting mode limit context pipe).run.run world = some (.ok run, middle))
    (hpulled : Pulled setting run answers last) :
    ∃ log, Told setting run answers last log ∧ ∀ error, some (.error error) ∈ answers →
      error.Attributed setting log ∨
        mode = .async ∧ limit ≠ none ∧ ∃ index, error = .timeout run.output index := by
  obtain ⟨stage, rfl, halone, haccounted⟩ := alone_of_ofPipe hcloses hpipe hrun
  obtain ⟨log, htold, herrors⟩ := hpulled.told hcloses halone haccounted
  refine ⟨log, htold, fun error herror => (herrors error herror).imp_right ?_⟩
  rintro ⟨hlimit, htimeout⟩
  by_cases hmode : mode = .async
  · subst hmode
    exact ⟨rfl, hlimit, htimeout⟩
  · exact absurd (if_neg hmode) hlimit

end Closed

/-- The error of reading a file passes a split, a loop and the output. -/
theorem errors_attributed_once_of_newsLooped : ∃ pipe,
    Pipe.compile newsLooped "news" = .ok pipe ∧ noFiles.registry.Closes (fun _ => True) ∧
    ∃ run middle last answers,
      (ofPipe noFiles .async (some 5) .testing pipe).run.run {} = some (.ok run, middle) ∧
      Pulled noFiles run answers last ∧
      answers = [some (.error (.notProduced ⟨"source"⟩ 0 (.file .notFound))), none] ∧
      ∃ log, Told noFiles run answers last log ∧ ∀ error, some (.error error) ∈ answers →
        error.Attributed noFiles log ∨
          Mode.async = .async ∧ some 5 ≠ none ∧ ∃ index, error = .timeout run.output index := by
  obtain ⟨diagram, dependents, order, counts, hpipe⟩ := compile_newsLooped
  have hcloses : noFiles.registry.Closes fun _ => True := Registry.closes_standard
  obtain ⟨⟨clock, alarm, lines, questions, events, probes, reads⟩, hrun, rfl⟩ :=
    ofPipe_newsLooped .async (some 5) {} diagram dependents order counts
  obtain ⟨last, later, hmany⟩ : ∃ last later,
      (pullMany noFiles 10 2 (newsLoopedRun .async (some 5) false)).run
          ⟨({} : World).clock, alarm, lines, questions, events, probes, reads⟩ =
        some (([some (.error (.notProduced ⟨"source"⟩ 0 (.file .notFound))), none], last), later) :=
    ⟨_, _, rfl⟩
  have hpulled := pulled_of_pullMany 2 hmany
  exact ⟨_, hpipe, hcloses, _, _, last, _, hrun, hpulled, rfl,
    errors_attributed_once hcloses trivial hrun hpulled⟩

end PipeRun

end Pipework

import Pipework.Proofs.Assembly.Upstream
import Pipework.Proofs.Demand.Pulling

/-! # Chains of default inputs

Along the default inputs a plan has chains of modules that make one answer of each answer, and of
splits. However the modules of such a chain are shared and whatever else takes their stages, in what
has been assembled the stage of the last one leads from the stage of the first one.
-/

namespace Pipework

/-- What modules of a type do to the answers that pass them, if they make one answer of each. The
branches of a split pass them on. -/
def Factory.passages? (step : Plan.Step) : Factory → Option (List Passage)
  | .builtin .output => some [.tag step.id]
  | .builtin .split => some []
  | .builtin .dateBuilder => some [.tag step.id, .map (.date step.conf)]
  | .builtin .exchangeRate => some [.tag step.id, .map (.exchange step.conf)]
  | .fixture .mutate => some [.tag step.id, .map (Fixture.overwriteOf step.conf)]
  | _ => none

/-- There is a chain of default inputs from a step of a plan to the target. The modules on the way,
without the target, make one answer of each answer or are splits. -/
inductive Plan.Draws (registry : Registry Factory) (steps : List Plan.Step) (target : Plan.Step) :
    Plan.Step → List Passage → Prop
  | here (htarget : target ∈ steps) : Draws registry steps target target []
  | through {step source : Plan.Step} {factory : Factory} {own passages : List Passage}
      (hstep : step ∈ steps) (hfactory : registry.get step.type = .ok factory)
      (hown : factory.passages? step = some own) (hinput : step.input = .module source.id)
      (h : Draws registry steps target source passages) :
      Draws registry steps target step (own ++ passages)

/-- What has been built passes on the answers of its input. -/
inductive Built.Passes (id : ModuleId) (input : Stage) : List Passage → Built → Prop
  | plain : Passes id input [.tag id] (.single input)
  | mapped (transform : Transform) :
      Passes id input [.tag id, .map transform] (.single (.mapped transform input))
  | fork (branches : Nat) : Passes id input [] (.fork branches input)

theorem Factory.passes_of_build {setting : Setting} {mode : Mode} {depth : Nat} {factory : Factory}
    {step : Plan.Step} {own : List Passage} {args : Arguments Factory} {built : Built}
    {world later : World} (hown : factory.passages? step = some own) (hconf : args.conf = step.conf)
    (hbuild : (factory.build setting mode depth args).run world = some (.ok built, later)) :
    built.Passes step.id args.input own := by
  rcases factory with type | fixture | inner
  · have hrun : (type.build mode args).run world = some (.ok built, later) := by
      cases depth <;> exact hbuild
    cases type
    all_goals cases hown
    all_goals cases hrun
    · exact .plain
    · exact .fork _
    · exact hconf ▸ .mapped _
    · exact hconf ▸ .mapped _
  · have hrun : (fixture.build mode args).run world = some (.ok built, later) := by
      cases depth <;> exact hbuild
    cases fixture
    all_goals cases hown
    cases hrun
    exact hconf ▸ .mapped _
  · cases hown

/-- A consumer of what has just been filed leads from where the input led from. -/
theorem Built.Passes.leads {step : Plan.Step} {input own stage : Stage}
    {passages rest : List Passage} {built : Built} {slot : Slot}
    {junctions added below : List (Junction Stage)} (h : built.Passes step.id input passages)
    (hfiles : built.Files step junctions.length slot added) (hoffers : slot.Offers stage)
    (hleads : Stage.Leads 0 below own rest junctions input) :
    Stage.Leads 0 below own (passages ++ rest) (junctions ++ added) stage := by
  have hsingle : ∀ inner, built = .single inner →
      Stage.Leads 0 below own (passages ++ rest) junctions (.tagged step.id 0 inner) := by
    rintro inner rfl
    cases h with
    | plain => exact .tagged step.id hleads
    | mapped transform => exact .tagged step.id (.mapped transform hleads)
  cases hfiles with
  | owned inner =>
      cases hoffers
      rw [List.append_nil]
      exact hsingle inner rfl
  | shared inner =>
      cases hoffers
      have hidle := Tap.idle_start (Stage.tagged step.id 0 inner)
      exact .shared (.tap _) (hidle.empty 0) hidle.undried (hsingle inner rfl)
  | fork branches upstream =>
      cases hoffers
      cases h
      have hidle := Fork.idle_start step.id input branches
      exact .shared (.branch _ _) (hidle.empty _) hidle.undried hleads

namespace Workshop

variable {φ : Type} {workshop : Workshop Run φ} {step target : Plan.Step} {built : Built}

/-- A module of the type of a step, with its id and configuration, has been built. -/
def Builds (workshop : Workshop Run φ) (step : Plan.Step) (built : Built) : Prop :=
  ∃ factory args world later, workshop.registry.get step.type = .ok factory ∧
    args.id = step.id ∧ args.conf = step.conf ∧
      (workshop.build factory args).run world = some (.ok built, later)

/-- In the scope of junctions a stage is that of a step: what has been built, attributed to the
step, or a branch of the split that has been built. -/
inductive Made (workshop : Workshop Run φ) (step : Plan.Step) : List (Junction Stage) → Stage → Prop
  | single {junctions : List (Junction Stage)} {own : Stage}
      (h : workshop.Builds step (.single own)) :
      Made workshop step junctions (.tagged step.id 0 own)
  | branch {junctions : List (Junction Stage)} {junction : Junction Stage} {branches : Nat}
      (index : Nat) (h : workshop.Builds step (.fork branches junction.upstream)) :
      Made workshop step (junctions ++ [junction]) (.branch junctions.length index)

theorem Made.slackens {junctions after : List (Junction Stage)} {stage : Stage}
    (h : workshop.Made step junctions stage)
    (hslackens : List.Forall₂ Junction.Slackens junctions after) :
    workshop.Made step after stage := by
  cases h with
  | single hbuilds => exact .single hbuilds
  | branch index hbuilds =>
      obtain ⟨first, next, hfirst, hnext, rfl⟩ := Junction.slackens_concat hslackens
      rw [hfirst.length_eq]
      exact .branch index (hnext.upstream_eq ▸ hbuilds)

/-- In the scope of junctions a stage leads from the fresh stage of the target. -/
def LeadsFrom (workshop : Workshop Run φ) (target : Plan.Step) (passages : List Passage)
    (junctions : List (Junction Stage)) (stage : Stage) : Prop :=
  ∃ below own, workshop.Made target below own ∧ Junction.Prompts true below ∧
    own.Prompt true below.length ∧ Stage.Leads 0 below own passages junctions stage

namespace LeadsFrom

variable {passages : List Passage} {junctions added : List (Junction Stage)} {stage : Stage}

theorem slackens {after : List (Junction Stage)}
    (h : workshop.LeadsFrom target passages junctions stage)
    (hslackens : List.Forall₂ Junction.Slackens junctions after) :
    workshop.LeadsFrom target passages after stage := by
  obtain ⟨below, own, hmade, hbelow, hown, hleads⟩ := h
  obtain ⟨under, hunder, hafter⟩ := hleads.slackens hslackens
  exact ⟨under, own, hmade.slackens hunder, hbelow.slackens hunder, hunder.length_eq ▸ hown, hafter⟩

theorem append (h : workshop.LeadsFrom target passages junctions stage)
    (added : List (Junction Stage)) :
    workshop.LeadsFrom target passages (junctions ++ added) stage := by
  obtain ⟨below, own, hmade, hbelow, hown, hleads⟩ := h
  exact ⟨below, own, hmade, hbelow, hown, hleads.append added⟩

/-- A consumer of what has just been built as the target. -/
theorem here {slot : Slot} (hbuilds : workshop.Builds target built)
    (hjunctions : Junction.Prompts true junctions) (hbuilt : built.Prompt junctions.length)
    (hfiles : built.Files target junctions.length slot added) (hoffers : slot.Offers stage) :
    workshop.LeadsFrom target [] (junctions ++ added) stage := by
  cases hfiles with
  | owned inner =>
      cases hoffers
      rw [List.append_nil]
      exact ⟨junctions, _, .single hbuilds, hjunctions, .tagged target.id (fun _ => rfl) hbuilt,
        .here⟩
  | shared inner =>
      cases hoffers
      have hidle := Tap.idle_start (Stage.tagged target.id 0 inner)
      exact ⟨junctions, _, .single hbuilds, hjunctions, .tagged target.id (fun _ => rfl) hbuilt,
        .shared (.tap _) (hidle.empty 0) hidle.undried .here⟩
  | fork branches upstream =>
      cases hoffers
      let fork : Junction Stage := .fork (.start target.id upstream branches)
      have hbranch : workshop.Builds target (.fork branches fork.upstream) := hbuilds
      exact ⟨_, _, .branch _ hbranch, hjunctions.concat hbuilt, .branch _ (by simp), .here⟩

end LeadsFrom

end Workshop

/-- Wherever there is a chain to the target, the stages that may be taken of an assembly lead from
the target's stage. -/
def Assembly.Chains {φ : Type} (assembly : Assembly φ) (workshop : Workshop Run φ)
    (chain : Plan.Step → List Passage → Prop) (target : Plan.Step) : Prop :=
  ∀ step passages, chain step passages → ∀ stage, assembly.Offers step.id stage →
    workshop.LeadsFrom target passages assembly.junctions stage

theorem Assembly.Chains.spends {φ : Type} {assembly rest : Assembly φ} {workshop : Workshop Run φ}
    {chain : Plan.Step → List Passage → Prop} {target : Plan.Step}
    (h : assembly.Chains workshop chain target) (hspends : assembly.Spends rest) :
    rest.Chains workshop chain target := fun step passages hchain stage hoffers =>
  (h step passages hchain stage (hspends.offers _ _ hoffers)).slackens hspends.junctions

theorem Plan.Draws.mem {registry : Registry Factory} {steps : List Plan.Step}
    {target step : Plan.Step} {passages : List Passage}
    (h : Plan.Draws registry steps target step passages) : step ∈ steps := by
  cases h with
  | here htarget => exact htarget
  | through hstep => exact hstep

namespace Setting

variable {setting : Setting} {context : RunContext} {steps : List Plan.Step} {target : Plan.Step}

/-- What has been built as a step continues the chains that end at the step. -/
theorem chains_build (hnodup : (steps.map Plan.Step.id).Nodup) {step : Plan.Step}
    (hstep : step ∈ steps) {factory : Factory} {assembly rest : Assembly Factory}
    {args : Arguments Factory} {built : Built} {world later : World}
    (hfactory : setting.registry.get step.type = .ok factory) (hassembly : assembly.Prompt)
    (hchains : assembly.Chains (setting.workshop .sync context)
      (Plan.Draws setting.registry steps target) target)
    (hfeeds : assembly.Feeds step args) (hspends : assembly.Spends rest)
    (hbuild : (factory.build setting .sync setting.depth args).run world =
      some (.ok built, later)) :
    (rest.addBuilt step built).Chains (setting.workshop .sync context)
      (Plan.Draws setting.registry steps target) target := by
  intro other passages hdraws stage hoffers
  obtain ⟨slot, added, hfiles, hgrows⟩ := rest.addBuilt_grows step built
  rw [hgrows.junctions_eq]
  rcases hgrows.offers other.id stage hoffers with hold | ⟨hsame, hnew⟩
  · exact (hchains.spends hspends other passages hdraws stage hold).append added
  obtain rfl := List.inj_on_of_nodup_map hnodup hdraws.mem hstep hsame
  have hrest := hassembly.spends hspends
  cases hdraws with
  | here =>
      have hargs := hspends.junctions.length_eq ▸ hassembly.feeds hfeeds
      exact .here ⟨factory, args, world, later, hfactory, hfeeds.id_eq, hfeeds.conf_eq, hbuild⟩
        hrest.junctions (Factory.prompt_of_build setting.depth hargs hbuild) hfiles hnew
  | @through _ source _ own passages _ hget hown hinput hdraws =>
      cases hfactory.symm.trans hget
      have hfrom : (setting.workshop .sync context).LeadsFrom target passages rest.junctions
          args.input := by
        rcases hfeeds.input with ⟨hsentinel, -⟩ | ⟨id, hid, hinputOffers⟩
        · cases hsentinel.symm.trans hinput
        · cases hid.symm.trans hinput
          exact (hchains source passages hdraws args.input hinputOffers).slackens hspends.junctions
      obtain ⟨below, made, hmade, hbelow, hown', hleads⟩ := hfrom
      have hpasses := Factory.passes_of_build hown hfeeds.conf_eq hbuild
      exact ⟨below, made, hmade, hbelow, hown', hpasses.leads hfiles hnew hleads⟩

theorem keeps_chains (hnodup : (steps.map Plan.Step.id).Nodup) :
    (setting.workshop .sync context).Keeps (fun assembly => assembly.Prompt ∧
      assembly.Chains (setting.workshop .sync context)
        (Plan.Draws setting.registry steps target) target) steps where
  build := by
    rintro step hstep factory assembly args rest world built later hfactory ⟨hassembly, hchains⟩
      hfeeds hspends hbuild
    exact ⟨((setting.buildsPrompt context).keeps steps).build step hstep factory assembly args rest
      world built later hfactory hassembly hfeeds hspends hbuild,
      chains_build hnodup hstep hfactory hassembly hchains hfeeds hspends hbuild⟩
  bind := by
    rintro assembly embeds ⟨hassembly, hchains⟩
    exact ⟨((setting.buildsPrompt context).keeps steps).bind assembly embeds hassembly, hchains⟩

/-- The output of a pipe draws on the stage of the target of every chain that ends at the last
step. -/
theorem output_chains {pipe : Pipe} (hnodup : (pipe.plan.steps.map Plan.Step.id).Nodup)
    (target : Plan.Step) :
    Ends True (fun _ => True)
      (fun stage => ∀ last passages, pipe.plan.last? = some last →
        Plan.Draws setting.registry pipe.plan.steps target last passages →
        ∃ below own, (setting.workshop .sync context).Made target below own ∧
          stage.DrawsOn 0 passages (.closed below own))
      ((setting.workshop .sync context).output pipe) := by
  have hstart : ∀ output, (Assembly.start output : Assembly Factory).Prompt ∧
      (Assembly.start output).Chains (setting.workshop .sync context)
        (Plan.Draws setting.registry pipe.plan.steps target) target := by
    refine fun output => ⟨.start output, ?_⟩
    rintro step passages - stage ⟨slot, hslot, -⟩
    cases hslot
  refine ((keeps_chains hnodup).output hstart).imp (fun _ => id) ?_
  rintro stage ⟨last, assembly, warnings, hlast, ⟨houtput, hassembly, hchains⟩, htake⟩
    other passages hother hdraws
  cases hlast.symm.trans hother
  obtain ⟨out, rest, hoffers, hspends, rfl⟩ := Assembly.takeOutput_eq_ok htake
  have hclosed : List.Forall₂ Junction.Slackens rest.junctions
      (rest.junctions.map Assembly.closeJunction) :=
    List.forall₂_map_right_iff.mpr
      (List.forall₂_same.mpr fun junction _ => Assembly.closeJunction_slackens junction)
  obtain ⟨below, own, hmade, hbelow, hown, hleads⟩ :=
    (hchains last passages hdraws out (houtput ▸ hoffers)).slackens
      hspends.junctions |>.slackens hclosed
  exact ⟨below, own, hmade, .closed hbelow.aged hown.aged hleads⟩

end Setting

end Pipework

import Pipework.Proofs.Assembly.Invariants
import Pipework.Proofs.Demand.Prompt
import Pipework.Stage.Build

/-! # Built to answer at once

Whatever is assembled in order to be executed without waiting consists of fresh prompt stages: of
prompt stages modules of all types build prompt ones, and so do pipes that run as modules and what
loops embed.
-/

namespace Pipework

/-- A fork that has just been made keeps nothing for anybody. -/
theorem Fork.idle_start {υ : Type} (id : ModuleId) (upstream : υ) (branches : Nat) :
    (Junction.fork (.start id upstream branches)).Idle where
  empty := by
    intro index
    simp only [Junction.waitingFor, buffer?, start, List.getElem?_replicate]
    split <;> rfl
  undried := rfl

theorem Tap.idle_start {υ : Type} (upstream : υ) : (Junction.tap (.start upstream)).Idle where
  empty := fun _ => rfl
  undried := rfl

theorem Junction.Slackens.idle {before after : Junction Stage} (h : before.Slackens after)
    (hidle : before.Idle) : after.Idle :=
  ⟨fun index => h.empty index (hidle.empty index), h.dry_eq.trans hidle.undried⟩

/-- Junctions whose consumers can tell no difference have the same upstreams. -/
theorem Junction.Prompts.slackens {fresh : Bool} {before after : List (Junction Stage)}
    (h : Prompts fresh before) (hslackens : List.Forall₂ Junction.Slackens before after) :
    Prompts fresh after := by
  intro place junction hjunction
  obtain ⟨hplace, rfl⟩ := List.getElem?_eq_some_iff.mp hjunction
  have hbefore : place < before.length := hslackens.length_eq ▸ hplace
  have hsame := (hslackens.get hbefore hplace).upstream_eq
  simp only [List.get_eq_getElem] at hsame
  rw [hsame]
  exact h place _ (List.getElem?_eq_getElem hbefore)

theorem Junction.idle_of_slackens {before after : List (Junction Stage)}
    (hidle : ∀ junction ∈ before, junction.Idle)
    (hslackens : List.Forall₂ Junction.Slackens before after) :
    ∀ junction ∈ after, junction.Idle := by
  induction hslackens with
  | nil => exact nofun
  | cons hhead _ ih =>
      obtain ⟨hfirst, hothers⟩ := List.forall_mem_cons.mp hidle
      exact List.forall_mem_cons.mpr ⟨hhead.idle hfirst, ih hothers⟩

/-- What a module is built from never waits and has not been asked. -/
structure Arguments.Prompt (size : Nat) (args : Arguments Factory) : Prop where
  input : args.input.Prompt true size
  inputs : ∀ entry ∈ args.inputs, entry.2.Prompt true size

/-- What has been built never waits and has not been asked. -/
def Built.Prompt (size : Nat) : Built → Prop
  | .single stage => stage.Prompt true size
  | .fork _ upstream => upstream.Prompt true size

/-- The stages that may be taken of an assembly never wait and have not been asked. -/
structure Assembly.Prompt (assembly : Assembly Factory) : Prop where
  offers : ∀ id stage, assembly.Offers id stage → stage.Prompt true assembly.junctions.length
  junctions : Junction.Prompts true assembly.junctions
  idle : ∀ junction ∈ assembly.junctions, junction.Idle

namespace Assembly.Prompt

variable {assembly rest : Assembly Factory} {step : Plan.Step}

theorem start (output : ModuleId) : (Assembly.start output : Assembly Factory).Prompt where
  offers := by
    rintro id stage ⟨slot, hslot, -⟩
    cases hslot
  junctions := .nil
  idle := nofun

theorem spends (h : assembly.Prompt) (hspends : assembly.Spends rest) : rest.Prompt where
  offers id stage hoffers :=
    hspends.junctions.length_eq ▸ h.offers id stage (hspends.offers id stage hoffers)
  junctions := h.junctions.slackens hspends.junctions
  idle := Junction.idle_of_slackens h.idle hspends.junctions

theorem feeds {args : Arguments Factory} (h : assembly.Prompt) (hfeeds : assembly.Feeds step args) :
    args.Prompt assembly.junctions.length where
  input := by
    rcases hfeeds.input with ⟨-, hsentinel⟩ | ⟨source, -, hoffers⟩
    · rw [hsentinel]
      exact .sentinel
    · exact h.offers source _ hoffers
  inputs := by
    intro entry hentry
    obtain ⟨source, hoffers⟩ := hfeeds.inputs entry hentry
    exact h.offers source _ hoffers

theorem addBuilt {built : Built} (h : assembly.Prompt)
    (hbuilt : built.Prompt assembly.junctions.length) : (assembly.addBuilt step built).Prompt := by
  obtain ⟨slot, added, hfiles, hgrows⟩ := assembly.addBuilt_grows step built
  have hold : ∀ id stage, assembly.Offers id stage →
      stage.Prompt true (assembly.junctions ++ added).length := fun id stage hoffers =>
    (h.offers id stage hoffers).mono (by rw [List.length_append]; exact Nat.le_add_right ..)
  -- One more junction, if there is one, has what has been built as its upstream.
  have hjunctions : Junction.Prompts true (assembly.junctions ++ added) ∧
      (∀ junction ∈ added, junction.Idle) ∧ ∀ stage, slot.Offers stage →
        stage.Prompt true (assembly.junctions ++ added).length := by
    cases hfiles with
    | owned own =>
        refine ⟨by rw [List.append_nil]; exact h.junctions, nofun, ?_⟩
        rintro _ ⟨⟩
        rw [List.append_nil]
        exact .tagged step.id (fun _ => rfl) hbuilt
    | shared own =>
        refine ⟨h.junctions.concat (.tagged step.id (fun _ => rfl) hbuilt), ?_, ?_⟩
        · exact List.forall_mem_singleton.mpr (Tap.idle_start _)
        · rintro _ ⟨⟩
          exact .tap (by simp)
    | fork branches upstream =>
        refine ⟨h.junctions.concat hbuilt, ?_, ?_⟩
        · exact List.forall_mem_singleton.mpr (Fork.idle_start ..)
        · rintro _ ⟨⟩
          exact .branch _ (by simp)
  obtain ⟨hprompts, hidle, hoffered⟩ := hjunctions
  refine ⟨fun id stage hoffers => ?_, hgrows.junctions_eq ▸ hprompts, ?_⟩
  · rw [hgrows.junctions_eq]
    rcases hgrows.offers id stage hoffers with hbefore | ⟨-, hnew⟩
    · exact hold id stage hbefore
    · exact hoffered stage hnew
  · rw [hgrows.junctions_eq]
    exact List.forall_mem_append.mpr ⟨h.idle, hidle⟩

theorem takeOutput {stage : Stage} {warnings : List Event} (h : assembly.Prompt)
    (htake : assembly.takeOutput = .ok (stage, warnings)) : stage.Prompt true 0 := by
  obtain ⟨out, rest, hoffers, hspends, rfl⟩ := Assembly.takeOutput_eq_ok htake
  have hrest := h.spends hspends
  refine .closed (fun _ junction hjunction => ?_) (hrest.junctions.map fun junction =>
    (closeJunction_slackens junction).upstream_eq) ?_
  · obtain ⟨held, hheld, rfl⟩ := List.mem_map.mp hjunction
    exact (closeJunction_slackens held).idle (hrest.idle held hheld)
  · rw [List.length_map, ← hspends.junctions.length_eq]
    exact h.offers _ out hoffers

end Assembly.Prompt

/-- Of prompt stages a workshop builds prompt ones. -/
def Workshop.BuildsPrompt (workshop : Workshop Run Factory) : Prop :=
  ∀ factory args size, args.Prompt size → ∀ world built later,
    (workshop.build factory args).run world = some (.ok built, later) → built.Prompt size

namespace Workshop.BuildsPrompt

variable {workshop : Workshop Run Factory}

theorem keeps (h : workshop.BuildsPrompt) (steps : List Plan.Step) :
    workshop.Keeps Assembly.Prompt steps where
  build := by
    intro step _ factory assembly args rest world built later _ hassembly hfeeds hspends hbuild
    have hargs := hspends.junctions.length_eq ▸ hassembly.feeds hfeeds
    exact (hassembly.spends hspends).addBuilt (h factory args _ hargs world built later hbuild)
  bind := fun _ _ hassembly => ⟨hassembly.offers, hassembly.junctions, hassembly.idle⟩

/-- The output of a pipe is prompt and fresh. -/
theorem output (h : workshop.BuildsPrompt) (pipe : Pipe) :
    Ends True (fun _ => True) (Stage.Prompt true 0) (workshop.output pipe) := by
  refine ((h.keeps pipe.plan.steps).output .start).imp (fun _ => id) ?_
  rintro stage ⟨last, assembly, warnings, -, ⟨-, hassembly⟩, htake⟩
  exact hassembly.takeOutput htake

end Workshop.BuildsPrompt

namespace Builtin

variable {args : Arguments Factory} {built : Built} {size : Nat}

theorem prompt_of_buildInput {kind : FieldType} {world later : World}
    (h : (buildInput kind args).run world = some (.ok built, later)) : built.Prompt size := by
  unfold buildInput at h
  split at h
  · cases h
  next input _ =>
    obtain ⟨value, middle, -, hpure⟩ := run_bind_eq_some_iff.mp h
    cases hrecord : input.record kind value with
    | error error =>
        rw [hrecord] at hpure
        cases hpure
    | ok record =>
        rw [hrecord] at hpure
        cases hpure
        exact .constant record

theorem prompt_batches {task : Task} (htask : task.IsPrompt) (hargs : args.Prompt size) :
    (Stage.batches task (.start args.input)).Prompt true size :=
  .batches htask (fun _ => rfl) hargs.input nofun nofun

theorem prompt_of_build (hargs : args.Prompt size) (type : Builtin) {world later : World}
    (h : (type.build .sync args).run world = some (.ok built, later)) : built.Prompt size := by
  cases type with
  | output | split =>
      cases h
      exact hargs.input
  | count =>
      cases h
      exact .tally (fun _ => rfl) hargs.input
  | dateBuilder | exchangeRate =>
      cases h
      exact .mapped _ hargs.input
  | loop =>
      obtain ⟨hbuilt, -⟩ := Prod.mk.inj (Option.some.inj h)
      unfold buildLoop at hbuilt
      split at hbuilt
      · cases hbuilt
      · obtain ⟨rule, -, hpure⟩ := bind_eq_ok_iff.mp hbuilt
        cases hpure
        exact prompt_batches rfl hargs
  | fetch =>
      obtain ⟨hbuilt, -⟩ := Prod.mk.inj (Option.some.inj h)
      obtain ⟨_, -, hpure⟩ := bind_eq_ok_iff.mp hbuilt
      cases hpure
      exact prompt_batches rfl hargs
  | textInput | numberInput | urlInput | privateInput => exact prompt_of_buildInput h

end Builtin

namespace Fixture

variable {args : Arguments Factory} {built : Built} {size : Nat}

/-- Without waiting a script consists of answers. -/
theorem prompt_of_buildScript {conf : Conf} (h : buildScript .sync conf = .ok built) :
    built.Prompt size := by
  unfold buildScript at h
  split at h
  · cases h
  · cases h
    exact .scripted fun entry hentry => (List.mem_filter.mp hentry).2

theorem prompt_of_build (hargs : args.Prompt size) (fixture : Fixture) {world later : World}
    (h : (fixture.build .sync args).run world = some (.ok built, later)) : built.Prompt size := by
  cases fixture with
  | emit =>
      obtain ⟨hbuilt, -⟩ := Prod.mk.inj (Option.some.inj h)
      exact prompt_of_buildScript hbuilt
  | mutate =>
      cases h
      exact .mapped _ hargs.input
  | merge =>
      cases h
      refine .pairing rfl rfl rfl ?_ fun input hinput => ?_
      · rintro _ ⟨⟩
        exact hargs.input
      · obtain ⟨before, after, heq, -⟩ := List.lookup_eq_some_iff.mp hinput
        exact hargs.inputs ("other", input) (by rw [heq]; simp)
  | pull =>
      cases h
      refine .sampling fun name input hinput => ?_
      rcases List.mem_cons.mp hinput with hmain | hnamed
      · cases hmain
        exact hargs.input
      · obtain ⟨entry, hentry, heq⟩ := List.mem_map.mp hnamed
        cases heq
        exact hargs.inputs entry hentry
  | probe =>
      obtain ⟨_, _, -, hpure⟩ := run_bind_eq_some_iff.mp h
      cases hpure
      exact .probe args.id hargs.input

end Fixture

/-- The induction is on how deep pipes may still be nested: the modules of a pipe that runs as a
module are built one level deeper. -/
theorem Factory.prompt_of_build {setting : Setting} (depth : Nat) {factory : Factory}
    {args : Arguments Factory} {size : Nat} (hargs : args.Prompt size) {world later : World}
    {built : Built}
    (h : (factory.build setting .sync depth args).run world = some (.ok built, later)) :
    built.Prompt size := by
  induction depth generalizing factory args size world built later with
  | zero =>
      cases factory with
      | builtin type => exact Builtin.prompt_of_build hargs type h
      | fixture fixture => exact Fixture.prompt_of_build hargs fixture h
      | pipe inner => cases h
  | succ depth ih =>
      cases factory with
      | builtin type => exact Builtin.prompt_of_build hargs type h
      | fixture fixture => exact Fixture.prompt_of_build hargs fixture h
      | pipe inner =>
          have hworkshop : ∀ context : RunContext, Workshop.BuildsPrompt
              ⟨setting.registry, Factory.build setting .sync depth, Run.report, .sync, context⟩ :=
            fun context factory args size hargs world built later hbuild => ih hargs hbuild
          rw [Factory.build] at h
          obtain ⟨outcome, middle, houtput, hpure⟩ := run_bind_eq_some_iff.mp h
          have hstage := ((hworkshop _).output inner).outcome houtput
          cases outcome with
          | error error => cases hpure
          | ok stage =>
              cases hpure
              exact hstage.mono (Nat.zero_le size)

theorem Setting.buildsPrompt (setting : Setting) (context : RunContext) :
    (setting.workshop .sync context).BuildsPrompt :=
  fun _ _ _ hargs _ _ _ hbuild => Factory.prompt_of_build setting.depth hargs hbuild

/-- A single consumer gets what has been built, with the first branch of a split handed out. -/
theorem Built.Prompt.single? {built : Built} {id : ModuleId} {stage : Stage} (h : built.Prompt 0)
    (hsingle : built.single? id = .ok stage) : stage.Prompt true 0 := by
  cases built with
  | single own =>
      cases hsingle
      exact h
  | fork branches upstream =>
      obtain ⟨⟨index, rest⟩, hattach, hclosed⟩ := bind_eq_ok_iff.mp hsingle
      cases hclosed
      have hslackens := Fork.attach_slackens hattach
      have hupstream : (Junction.fork rest).upstream.Prompt true 0 := by
        rw [hslackens.upstream_eq]
        exact h
      refine .closed (fun _ => ?_) (Junction.Prompts.nil.concat hupstream)
        (.branch index Nat.one_pos)
      exact List.forall_mem_singleton.mpr (hslackens.idle (Fork.idle_start ..))

/-- What a loop embeds is prompt. -/
theorem Embed.prompt_of_instantiate {setting : Setting} {embed : Embed Factory} {item : Record}
    {stage : Stage} {world later : World}
    (h : (embed.instantiate setting .sync item).run world = some (.ok stage, later)) :
    stage.Prompt true 0 := by
  unfold Embed.instantiate at h
  obtain ⟨outcome, middle, hbuild, hpure⟩ := run_bind_eq_some_iff.mp h
  cases outcome with
  | error error => cases hpure
  | ok built =>
      have hbuilt : built.Prompt 0 := Factory.prompt_of_build setting.depth
        ⟨.once fun _ => rfl, fun _ hentry => absurd hentry List.not_mem_nil⟩ hbuild
      have hstage : (built.single? embed.id).map (Stage.tagged embed.id 0) = .ok stage :=
        congrArg Prod.fst (Option.some.inj hpure)
      cases hsingle : built.single? embed.id with
      | error error =>
          rw [hsingle] at hstage
          cases hstage
      | ok own =>
          rw [hsingle] at hstage
          cases hstage
          exact .tagged embed.id (fun _ => rfl) (hbuilt.single? hsingle)

end Pipework

import Pipework.Proofs.Plan.Bindings

/-! # Keywords of call forms

The call form of a step has a keyword for each of its named inputs and some of its own: one for the
configuration, one for what a loop embeds and one for the branches of a split. No two named inputs
of a step share a name, but nothing keeps a terminal from having the name of an own keyword. Then
the call form shows this keyword twice, and only then is it unclear what feeds the input.
-/

namespace Pipework

namespace Plan.Step

variable {step : Plan.Step} {name : String}

/-- The keywords of a call form that are not the names of inputs. -/
def ownKeywords (step : Plan.Step) : List String :=
  "conf" :: (step.embed.map fun _ => "embed").toList ++ (step.branches.map fun _ => "splits").toList

theorem ownKeywords_nodup (step : Plan.Step) : step.ownKeywords.Nodup := by
  unfold ownKeywords
  cases step.embed <;> cases step.branches <;> simp

theorem keywords_perm (step : Plan.Step) :
    (step.keywords.map Prod.fst).Perm (step.ownKeywords ++ step.inputs.map Prod.fst) := by
  have hnames : step.keywords.map Prod.fst =
      "conf" :: (step.inputs.map Prod.fst ++ ((step.embed.map fun _ => "embed").toList ++
        (step.branches.map fun _ => "splits").toList)) := by
    unfold keywords
    cases step.embed <;> cases step.branches <;> simp [Function.comp_def]
  rw [hnames, ownKeywords, List.cons_append, List.cons_append]
  exact List.perm_append_comm.cons _

/-- Different keywords means that no named input has the name of an own keyword. -/
theorem keywords_nodup_iff_disjoint (hinputs : (step.inputs.map Prod.fst).Nodup) :
    (step.keywords.map Prod.fst).Nodup ↔ ∀ input ∈ step.inputs, input.1 ∉ step.ownKeywords := by
  rw [step.keywords_perm.nodup_iff, List.nodup_append']
  constructor
  · rintro ⟨-, -, hdisjoint⟩ input hinput hown
    exact hdisjoint hown (List.mem_map_of_mem hinput)
  · intro hdisjoint
    refine ⟨step.ownKeywords_nodup, hinputs, fun name hown hname => ?_⟩
    obtain ⟨input, hinput, rfl⟩ := List.mem_map.mp hname
    exact hdisjoint input hinput hown

/-- The keyword of an input shows its source and, unless it is an own keyword as well, nothing
else. -/
theorem mem_keywords_iff (hinputs : (step.inputs.map Prod.fst).Nodup)
    {input : String × ModuleId} (hinput : input ∈ step.inputs)
    (hown : input.1 ∉ step.ownKeywords) {text : String} :
    (input.1, text) ∈ step.keywords ↔ text = input.2.name := by
  constructor
  · intro hmem
    simp only [keywords, List.mem_append, List.mem_map, Option.mem_toList,
      List.mem_singleton] at hmem
    rcases hmem with ((hconf | ⟨other, hother, heq⟩) | hembed) | hbranches
    · exact absurd (by simp [ownKeywords, (Prod.mk.inj hconf).1]) hown
    · obtain ⟨hname, rfl⟩ := Prod.mk.inj heq
      rw [List.inj_on_of_nodup_map hinputs hother hinput hname]
    · obtain ⟨embed, hembed, heq⟩ := Option.map_eq_some_iff.mp hembed
      exact absurd (by simp [ownKeywords, hembed, ← (Prod.mk.inj heq).1]) hown
    · obtain ⟨branches, hbranches, heq⟩ := Option.map_eq_some_iff.mp hbranches
      exact absurd (by simp [ownKeywords, hbranches, ← (Prod.mk.inj heq).1]) hown
  · rintro rfl
    simp only [keywords, List.mem_append, List.mem_map]
    exact .inl (.inl (.inr ⟨input, hinput, rfl⟩))

end Plan.Step

namespace Diagram.Describes

variable {diagram : Diagram} {isLast : Bool} {module : Module} {step : Plan.Step}

/-- Besides its configuration a step shows what it embeds if it is a loop, and its branches if it is
a split. -/
theorem mem_ownKeywords_iff (h : diagram.Describes isLast module step) {name : String} :
    name ∈ step.ownKeywords ↔ name = "conf" ∨ step.type = TypeName.loop ∧ name = "embed" ∨
      step.type = TypeName.split ∧ name = "splits" := by
  have hembed : step.embed.isSome ↔ step.type = TypeName.loop := by
    constructor
    · intro hsome
      by_contra htype
      have hnone := h.embed_eq
      rw [embed, if_neg (h.type_eq ▸ htype)] at hnone
      rw [← Except.ok.inj hnone] at hsome
      cases hsome
    · intro htype
      obtain ⟨id, hid⟩ := h.exists_embed htype
      rw [hid]
      rfl
  have hbranches : step.branches.isSome ↔ step.type = TypeName.split := by
    rw [h.branches_eq, h.type_eq, branches]
    split <;> simp [*]
  rw [← hembed, ← hbranches, Plan.Step.ownKeywords]
  cases step.embed <;> cases step.branches <;> simp

end Diagram.Describes

namespace Pipe

/-- The named inputs of a step have distinct keywords. All keywords of its call form are distinct
exactly if no named input is called like one of the step's own keywords, and the keyword of an input
that is not shows the input's source and nothing else. -/
theorem keywords_nodup_iff {description : Value} {name : String} {pipe : Pipe}
    (hcompile : compile description name = .ok pipe) :
    ∀ step ∈ pipe.plan.steps,
      let own := fun name => name = "conf" ∨ step.type = TypeName.loop ∧ name = "embed" ∨
        step.type = TypeName.split ∧ name = "splits"
      (step.inputs.map Prod.fst).Nodup ∧
      ((step.keywords.map Prod.fst).Nodup ↔ ∀ input ∈ step.inputs, ¬ own input.1) ∧
      ∀ input ∈ step.inputs, ¬ own input.1 →
        ∀ text, (input.1, text) ∈ step.keywords ↔ text = input.2.name := by
  obtain ⟨diagram, hparse, hcompile⟩ := bind_eq_ok_iff.mp hcompile
  have hcoherent := Diagram.coherent_of_parse hparse
  obtain ⟨hexecution, hsteps, rfl⟩ := Diagram.compile_eq_execution hcoherent hcompile
  intro step hstep own
  obtain ⟨module, -, hdescribes⟩ := (Diagram.stepsOf_eq_ok hsteps).2 step hstep
  have hinputs := hdescribes.inputs_nodup
  refine ⟨hinputs, ?_, fun input hinput hown text => ?_⟩
  · rw [Plan.Step.keywords_nodup_iff_disjoint hinputs]
    exact forall₂_congr fun input _ => not_congr hdescribes.mem_ownKeywords_iff
  · exact Plan.Step.mem_keywords_iff hinputs hinput (mt hdescribes.mem_ownKeywords_iff.mp hown)

/-- Two modules that feed a third one, whose named input is called like its configuration. -/
def confFed : Value :=
  meeting [Diagram.plainWire "first" "left" "both", namedWire "second" "right" "both" "conf"]

theorem keywords_nodup_of_partners : ∃ pipe, compile partners "pipe" = .ok pipe ∧
    ∀ step ∈ pipe.plan.steps, (step.keywords.map Prod.fst).Nodup := by
  have hok : (compile partners "pipe").map (fun pipe => pipe.plan.steps.map Plan.Step.inputs) =
      .ok [[], [], [("other", ⟨"right"⟩)]] := by cbv
  obtain ⟨pipe, hpipe, hinputs⟩ := map_eq_ok_iff.mp hok
  refine ⟨pipe, hpipe, fun step hstep => ?_⟩
  refine (keywords_nodup_iff hpipe step hstep).2.1.mpr fun input hinput => ?_
  have hmem : step.inputs ∈ [[], [], [("other", ⟨"right"⟩)]] :=
    hinputs ▸ List.mem_map_of_mem hstep
  have hname : input.1 = "other" := by
    simp only [List.mem_cons, List.not_mem_nil, or_false] at hmem
    rcases hmem with hempty | hempty | hone
    · exact absurd (hempty ▸ hinput) List.not_mem_nil
    · exact absurd (hempty ▸ hinput) List.not_mem_nil
    · rw [hone, List.mem_singleton] at hinput
      rw [hinput]
  simp [hname]

/-- A named input may be called like the configuration, whose keyword is then shown twice. -/
theorem conf_shown_twice : ∃ pipe, compile confFed "pipe" = .ok pipe ∧
    ∃ step ∈ pipe.plan.steps, step.keywords.map Prod.fst = ["conf", "conf"] ∧
      ¬ (step.keywords.map Prod.fst).Nodup := by
  have hok : (compile confFed "pipe").map (fun pipe =>
      pipe.plan.steps.map fun step => step.keywords.map Prod.fst) =
        .ok [["conf"], ["conf"], ["conf", "conf"]] := by cbv
  obtain ⟨pipe, hpipe, hshown⟩ := map_eq_ok_iff.mp hok
  have hmem : ["conf", "conf"] ∈
      pipe.plan.steps.map fun step => step.keywords.map Prod.fst := by
    simp [hshown]
  obtain ⟨step, hstep, hkeywords⟩ := List.mem_map.mp hmem
  exact ⟨pipe, hpipe, step, hstep, hkeywords, by rw [hkeywords]; decide⟩

end Pipe

end Pipework

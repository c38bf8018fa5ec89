import Pipework.Pipe.Description
import Pipework.Proofs.Conf.Texts
import Pipework.Proofs.Stage.Budget
import Pipework.Proofs.Subpipe.Isolation

/-! # What described inputs give

A pipe is described by the inputs that its modules ask for, and a user input reads its configuration
for itself. Both read the same name, prompt and default, whatever values stand in the configuration.
So a value that is supplied under the described name is what the module gives, and without one it
gives the described default; but an empty default gives way to that for debugging, which the
description does not have.
-/

namespace Pipework

variable {setting : Setting} {conf : Conf} {described : PipeInput}

/-- Asked within whatever budget and wherever, the stage gives a record and is as it was. -/
def Stage.Repeats (setting : Setting) (stage : Stage) (record : Record) : Prop :=
  ∀ budget junctions world, Scene.Comes (Stage.poll setting (budget + 1)) ⟨stage, junctions, world⟩
    (.answer (.ok record)) ⟨stage, junctions, world⟩

namespace PipeInput

/-- The text of the described default. An empty one gives way to that for debugging. -/
def defaultText (described : PipeInput) (conf : Conf) : String :=
  if described.default.plainText.isEmpty then ((conf.given? "debug").map Value.plainText).getD ""
  else described.default.plainText

/-- What is described are the texts of the configuration and the default as it is. -/
theorem texts_of_described (h : ofConf? conf = some described) :
    described.name = conf.heldText "name" none ∧ described.prompt = conf.heldText "prompt" none ∧
      described.default.plainText = conf.heldText "default" none := by
  obtain ⟨position, -, h⟩ := Option.bind_eq_some_iff.mp h
  obtain ⟨name, hname, h⟩ := Option.bind_eq_some_iff.mp h
  obtain ⟨prompt, hprompt, h⟩ := Option.bind_eq_some_iff.mp h
  cases h
  rw [Conf.heldText_none, Conf.heldText_none, Conf.heldText_none, hname, hprompt]
  refine ⟨rfl, rfl, ?_⟩
  cases conf.given? "default" <;> rfl

end PipeInput

namespace UserInput

/-- A user input asks for what is described. -/
theorem ofConf_of_described (h : PipeInput.ofConf? conf = some described) : ofConf conf =
    .ok ⟨described.name, described.prompt, described.defaultText conf⟩ := by
  obtain ⟨hname, hprompt, hdefault⟩ := PipeInput.texts_of_described h
  have hread : defaultOf conf = .ok (described.defaultText conf) := by
    simp only [defaultOf, Conf.text_eq, PipeInput.defaultText, hdefault, ← Conf.heldText_none]
    simp only [bind, Except.bind]
    split <;> rfl
  simp only [ofConf, hread, Conf.text_eq, hname, hprompt]
  rfl

end UserInput

namespace Builtin

/-- In whatever world the module is built, it becomes a stage that gives a value for ever as the kind
of the module has it, or it fails with the error of the conversion. -/
structure Gives (setting : Setting) (mode : Mode) (type : Builtin) (args : Arguments Factory)
    (name : String) (value : Value) : Prop where
  held : ∀ held, (UserInput.kindOf type).convert name value = .ok held → ∀ world, ∃ stage,
    (type.build mode args).run world = some (.ok (.single stage), world) ∧
      stage.Repeats setting (.single UserInput.valueKey held)
  refused : ∀ error, (UserInput.kindOf type).convert name value = .error error → ∀ world,
    (type.build mode args).run world = some (.error error, world)

/-- A user input whose value is decided without asking the user. -/
theorem gives_of_preset {type : Builtin} (htype : type ∈ UserInput.types) (mode : Mode)
    {args : Arguments Factory} {input : UserInput} {value : Value}
    (hinput : UserInput.ofConf args.conf = .ok input)
    (hpreset : input.preset? args.context = some value) :
    type.Gives setting mode args input.name value := by
  have hbuild (world : World) : (type.build mode args).run world =
      some ((input.record (UserInput.kindOf type) value).map fun record =>
        .single (.constant record), world) := by
    rw [build_userInput htype, buildInput, hinput]
    simp only [inputValue, hpreset]
    rfl
  constructor
  · intro held hheld world
    refine ⟨.constant (.single UserInput.valueKey held), ?_, fun _ _ _ => rfl⟩
    rw [hbuild, UserInput.record, hheld]
    rfl
  · intro error herror world
    rw [hbuild, UserInput.record, herror]
    rfl

end Builtin

theorem RunContext.takesSupplied_of_get? {context : RunContext} {name : String} {value : Value}
    (h : context.inputs.get? name = some value) : context.takesSupplied = true := by
  have hmem := Dict.mem_entries_of_get? h
  cases hentries : context.inputs.entries with
  | nil =>
      rw [hentries] at hmem
      cases hmem
  | cons entry rest => simp [takesSupplied, Dict.isEmpty, hentries]

/-- What a user input gives that is configured as described. -/
structure PipeInput.Kept (setting : Setting) (described : PipeInput) (conf : Conf) : Prop where
  /-- The value that the run has under the described name. -/
  supplied : ∀ mode, ∀ type ∈ UserInput.types, ∀ args : Arguments Factory, args.conf = conf →
    ∀ value, args.context.inputs.get? described.name = some value →
      type.Gives setting mode args described.name value
  /-- The text of the described default, if the run has no value for the name and does not ask the
  user. An empty one gives way to that for debugging. -/
  unsupplied : ∀ mode, ∀ type ∈ UserInput.types, ∀ args : Arguments Factory, args.conf = conf →
    args.context.inputs.get? described.name = none →
      (args.context.takesSupplied || args.context.test) = true →
        type.Gives setting mode args described.name (.text (described.defaultText conf))

/-- User inputs keep to their descriptions. -/
theorem UserInput.described_kept (setting : Setting)
    (h : PipeInput.ofConf? conf = some described) : described.Kept setting conf where
  supplied := by
    rintro mode type htype args rfl value hvalue
    refine Builtin.gives_of_preset htype mode (ofConf_of_described h) ?_
    rw [preset?, if_pos (RunContext.takesSupplied_of_get? hvalue), hvalue]
    rfl
  unsupplied := by
    rintro mode type htype args rfl hnone hsilent
    refine Builtin.gives_of_preset htype mode (ofConf_of_described h) ?_
    rw [preset?, hnone]
    cases htakes : args.context.takesSupplied with
    | true => rfl
    | false =>
        rw [htakes, Bool.false_or] at hsilent
        rw [hsilent]
        rfl

namespace UserInput

/-- A configuration of a number, with a default that is one. -/
def limitConf : Conf :=
  ⟨⟨[("position", .text " 2 "), ("name", .text "limit"), ("prompt", .text "How many"),
    ("default", .object ⟨[("type", .text "number"), ("value", .text "5")]⟩)]⟩⟩

/-- A configuration of a text whose default is empty. -/
def debuggedConf : Conf :=
  ⟨⟨[("position", .int 1), ("name", .text "query"), ("prompt", .text "Search for"),
    ("default", .text ""), ("debug", .text "news")]⟩⟩

/-- What a user input is built from in a run that does not ask the user. -/
def asking (conf : Conf) : Arguments Factory :=
  ⟨⟨"input"⟩, .testing, .sentinel, conf, [], none, none⟩

end UserInput

theorem UserInput.described_kept_of_limit : ∃ described,
    PipeInput.ofConf? limitConf = some described ∧
    described.Kept ⟨fun _ => .error .notFound, Inhabited.default, .standard⟩ limitConf ∧
    (asking limitConf).context.inputs.get? described.name = none ∧
    (asking limitConf).context.test = true ∧ described.defaultText limitConf = "5" :=
  ⟨_, rfl, described_kept _ rfl, rfl, rfl, rfl⟩

/-- The described default is empty, and the module gives another text. -/
theorem UserInput.empty_default_gives_way : ∃ described,
    PipeInput.ofConf? debuggedConf = some described ∧ described.default = .text "" ∧
    (asking debuggedConf).context.inputs.get? described.name = none ∧
    (kindOf .textInput).convert described.name (.text "") = .ok (.text "") ∧
    (Builtin.textInput.build .sync (asking debuggedConf)).run {} =
      some (.ok (.single (.constant (.single valueKey (.text "news")))), {}) :=
  ⟨_, rfl, rfl, rfl, rfl, rfl⟩

end Pipework

import Pipework.Assembly
import Pipework.Fetch
import Pipework.UserInput
import Pipework.World

/-!
# Building stages

How the modules of each type are built. A pipe that runs as a module is assembled anew in a context
of its own: it gets the literal values of the module's configuration as its inputs, and nothing of
the pipe around it but the two flags for testing and logging.
-/

namespace Pipework

namespace Builtin

/-- The value of a user input: supplied, or else given by the user. -/
def inputValue (input : UserInput) (context : RunContext) : Run Value := do
  match input.preset? context with
  | some value => return value
  | none => return input.answer (← Run.ask input.question)

/-- Builds a user input, whose value is decided now. -/
def buildInput (kind : FieldType) (args : Arguments Factory) : Run (Except PipeError Built) := do
  match UserInput.ofConf args.conf with
  | .error error => return .error error
  | .ok input =>
      let value ← inputValue input args.context
      return (input.record kind value).map fun record => .single (.constant record)

/-- Builds a loop. -/
def buildLoop (mode : Mode) (args : Arguments Factory) : Except PipeError Built :=
  match args.embed with
  | none => .error (.badField "embed" .noEmbed)
  | some embed => do
      let rule ← LoopRule.ofConf args.conf
      return .single (.batches (.loop rule embed mode) (.start args.input))

/-- Builds a stage that fetches a source. -/
def buildFetch (mode : Mode) (args : Arguments Factory) : Except PipeError Built := do
  Fetch.checkConf args.conf
  return .single (.batches (.fetch args.conf mode) (.start args.input))

/-- Builds a module of a built-in type. -/
def build (mode : Mode) (type : Builtin) (args : Arguments Factory) :
    Run (Except PipeError Built) :=
  match type with
  | .output => return .ok (.single args.input)
  | .split => return .ok (.fork (args.branches.getD Diagram.usualBranches) args.input)
  | .loop => return buildLoop mode args
  | .count => return .ok (.single (.tally (.start args.input)))
  | .fetch => return buildFetch mode args
  | .textInput | .numberInput | .urlInput | .privateInput =>
      buildInput (UserInput.kindOf type) args
  | .dateBuilder => return .ok (.single (.mapped (.date args.conf) args.input))
  | .exchangeRate => return .ok (.single (.mapped (.exchange args.conf) args.input))

end Builtin

namespace Fixture

/-- A list in a configuration, empty if there is none. -/
def listOf (conf : Conf) (name : String) : List Value :=
  ((conf.descriptor? name).bind Value.asList?).getD []

/-- Builds scripted answers, unless the configuration says that building fails. -/
def buildScript (mode : Mode) (conf : Conf) : Except PipeError Built :=
  match (conf.descriptor? "build_fail").bind Value.asText? with
  | some text => .error (.module (.other text))
  | none => .ok (.single (.scripted (.ofValues (listOf conf "items") mode)))

/-- What a configuration says is done to each record. -/
def overwriteOf (conf : Conf) : Transform :=
  .overwrite (((conf.descriptor? "field").bind Value.asText?).getD "")
    ((conf.descriptor? "value").getD .null)

/-- Builds a stage that asks its inputs in a given order. -/
def buildSampling (args : Arguments Factory) : Built :=
  .single (.sampling {
    script := (listOf args.conf "script").filterMap Value.asText?
    inputs := (Terminal.inputName, some args.input)
      :: args.inputs.map fun input => (input.1, some input.2) })

/-- Builds a fixture. -/
def build (mode : Mode) (fixture : Fixture) (args : Arguments Factory) :
    Run (Except PipeError Built) :=
  match fixture with
  | .emit => return buildScript mode args.conf
  | .mutate => return .ok (.single (.mapped (overwriteOf args.conf) args.input))
  | .merge => return .ok (.single (.pairing (.start args.input (args.inputs.lookup "other") mode)))
  | .pull => return .ok (buildSampling args)
  | .probe => do
      Run.count args.id fun count => { count with builds := count.builds + 1 }
      return .ok (.single (.probe args.id args.input))

end Fixture

namespace Factory

/-- The values that a module's configuration supplies to the pipe that runs as the module. -/
def suppliedInputs (conf : Conf) : Dict Value :=
  .ofList (conf.fields.keys.filterMap fun name => (conf.given? name).map fun value =>
    (name, value))

/-- Builds a module. The first number is how deep pipes may still be nested. -/
def build (setting : Setting) (mode : Mode) :
    Nat → Factory → Arguments Factory → Run (Except PipeError Built)
  | _, .builtin type, args => type.build mode args
  | _, .fixture kind, args => kind.build mode args
  | 0, .pipe _, _ => failure
  | depth + 1, .pipe inner, args => do
      let workshop : Workshop Run Factory := {
        registry := setting.registry
        build := Factory.build setting mode depth
        report := Run.report
        mode
        context := args.context.asSubpipe (suppliedInputs args.conf) }
      return (← (workshop.output inner).run).map .single

end Factory

namespace Setting

/-- Assembles pipes in this setting. -/
def workshop (setting : Setting) (mode : Mode) (context : RunContext) :
    Workshop Run Factory := {
  registry := setting.registry
  build := Factory.build setting mode setting.depth
  report := Run.report
  mode, context }

end Setting

/-- What was built as the stage of a single consumer, who takes the first branch of a split. -/
def Built.single? (id : ModuleId) : Built → Except PipeError Stage
  | .single stage => .ok stage
  | .fork branches upstream => do
      let (index, rest) ← (Fork.start id upstream branches).attach
      return .closed [.fork rest] (.branch 0 index)

/-- Builds an embedded module over one record. -/
def Embed.instantiate (setting : Setting) (mode : Mode) (embed : Embed Factory) (item : Record) :
    Run (Except PipeError Stage) := do
  let args : Arguments Factory := {
    id := embed.id, context := embed.context, input := .once (some item), conf := embed.conf
    inputs := [], embed := embed.nested, branches := none }
  match ← embed.factory.build setting mode setting.depth args with
  | .error error => return .error (error.whileBuilding embed.id)
  | .ok built => return (built.single? embed.id).map (.tagged embed.id 0)

end Pipework

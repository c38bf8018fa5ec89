import Pipework.Proofs.Answers.Batching
import Pipework.Proofs.Assembly.Upstream
import Pipework.Proofs.Mode.Agreement

/-! # Counting the items of documents

A pipe that reads a document and counts its items gives one record. The number in it is that of the
items before the first that has the key of the sentinel.
-/

namespace Pipework

variable {setting : Setting}

/-- Reporting always comes to an end. -/
theorem Run.run_lift_report (event : Event) (world : World) : ∃ later,
    (ExceptT.lift (Run.report event) : ExceptT PipeError Run Unit).run.run world =
      some (.ok (), later) :=
  ⟨_, rfl⟩

/-- A step whose stage can be built is added. -/
theorem Workshop.run_addStep_of_build {workshop : Workshop Run Factory}
    {assembly next : Assembly Factory} {step : Plan.Step} {factory : Factory}
    {args : Arguments Factory} {built : Built} (hreport : workshop.report = Run.report)
    (hget : workshop.registry.get step.type = .ok factory) (hembedded : step.embedded = false)
    (hargs : assembly.arguments workshop.context step = .ok (args, next))
    (hbuild : workshop.build factory args = pure (.ok built)) (world : World) :
    ∃ later, (workshop.addStep assembly step).run.run world =
      some (.ok (next.addBuilt step built), later) := by
  have hstep : ∃ later, (workshop.buildStep assembly step factory).run.run world =
      some (.ok (next.addBuilt step built), later) := by
    unfold Workshop.buildStep
    rw [hargs, hreport]
    by_cases hverbose : workshop.context.verbose = true
    · obtain ⟨middle, hreported⟩ := Run.run_lift_report (.building step.callForm) world
      refine ⟨middle, run_run_bind_eq_some_iff.mpr (.inr ⟨(args, next), world, rfl, ?_⟩)⟩
      dsimp only
      rw [if_pos hverbose, hbuild]
      exact run_run_bind_eq_some_iff.mpr (.inr ⟨(), middle, hreported, rfl⟩)
    · refine ⟨world, run_run_bind_eq_some_iff.mpr (.inr ⟨(args, next), world, rfl, ?_⟩)⟩
      dsimp only
      rw [if_neg hverbose, hbuild]
      rfl
  obtain ⟨later, hstep⟩ := hstep
  refine ⟨later, run_run_bind_eq_some_iff.mpr (.inr ⟨factory, world, ?_, ?_⟩)⟩
  · rw [hget]
    rfl
  · rw [if_neg (Bool.eq_false_iff.mp hembedded)]
    exact hstep

/-- The step of a module that reads a document. -/
def Plan.Step.fetching (source : ModuleId) (conf : Conf) : Plan.Step :=
  { id := source, type := "fetch", embedded := false, input := .sentinel, inputs := [], embed := none,
    branches := none, conf, consumers := 1 }

/-- The step of a module that counts what another gives. -/
def Plan.Step.counting (source sink : ModuleId) (unused : Conf) : Plan.Step :=
  { id := sink, type := "count", embedded := false, input := .module source, inputs := [],
    embed := none, branches := none, conf := unused, consumers := 1 }

/-- A pipe reads a document and counts its items. -/
structure Pipe.CountsItems (setting : Setting) (pipe : Pipe) (source sink : ModuleId)
    (conf unused : Conf) (document : Value) : Prop where
  steps : pipe.plan.steps = [.fetching source conf, .counting source sink unused]
  distinct : source ≠ sink
  fetches : setting.registry.get "fetch" = .ok (.builtin .fetch)
  counts : setting.registry.get "count" = .ok (.builtin .count)
  checked : Fetch.checkConf conf = .ok ()
  found : ∃ path text, Fetch.path conf (some Record.sentinel) = .ok path ∧
    setting.read path = .ok text ∧ Value.read? text = some document

/-- The stage that gives the items. -/
def Stage.fetched (mode : Mode) (source : ModuleId) (conf : Conf) : Stage :=
  .tagged source 0 (.batches (.fetch conf mode) (.start .sentinel))

/-- The stage that counts them. -/
def Stage.counting (mode : Mode) (source sink : ModuleId) (conf : Conf) : Stage :=
  .tagged sink 0 (.tally (.start (.fetched mode source conf)))

/-- The modules of the pipe once one has been built. -/
def Assembly.fetched (mode : Mode) (source sink : ModuleId) (conf : Conf) : Assembly Factory :=
  { Assembly.start sink with slots := [(source, .owned (some (.fetched mode source conf)))] }

/-- The modules of the pipe once both have been built. -/
def Assembly.counted (mode : Mode) (source sink : ModuleId) (conf : Conf) : Assembly Factory :=
  { Assembly.start sink with
    slots := [(source, .owned none), (sink, .owned (some (.counting mode source sink conf)))] }

namespace Pipe.CountsItems

variable {pipe : Pipe} {source sink : ModuleId} {conf unused : Conf} {document : Value}

theorem run_addStep_fetching (h : pipe.CountsItems setting source sink conf unused document)
    (mode : Mode) (context : RunContext) (world : World) : ∃ later,
    ((setting.workshop mode context).addStep (.start sink) (.fetching source conf)).run.run world =
      some (.ok (.fetched mode source sink conf), later) := by
  have hbuild : (setting.workshop mode context).build (.builtin .fetch)
      ⟨source, context, .sentinel, conf, [], none, none⟩ =
        pure (.ok (.single (.batches (.fetch conf mode) (.start .sentinel)))) := by
    cases hdepth : setting.depth
    all_goals
      show (pure (Builtin.buildFetch mode _) : Run _) = _
      rw [Builtin.buildFetch, h.checked]
      rfl
  exact Workshop.run_addStep_of_build rfl h.fetches rfl rfl hbuild world

theorem run_addStep_counting (h : pipe.CountsItems setting source sink conf unused document)
    (mode : Mode) (context : RunContext) (world : World) : ∃ later,
    ((setting.workshop mode context).addStep (.fetched mode source sink conf)
      (.counting source sink unused)).run.run world =
        some (.ok (.counted mode source sink conf), later) := by
  have hbuild : (setting.workshop mode context).build (.builtin .count)
      ⟨sink, context, .fetched mode source conf, unused, [], none, none⟩ =
        pure (.ok (.single (.tally (.start (.fetched mode source conf))))) := by
    cases hdepth : setting.depth <;> rfl
  have hargs : (Assembly.fetched mode source sink conf).arguments context
      (.counting source sink unused) =
        .ok (⟨sink, context, .fetched mode source conf, unused, [], none, none⟩,
          { Assembly.start sink with slots := [(source, .owned none)] }) := by
    simp [Assembly.arguments, Assembly.takeInput, Plan.Step.counting, Assembly.take,
      Assembly.fetched, Assembly.setSlot]
    rfl
  exact Workshop.run_addStep_of_build rfl h.counts rfl hargs hbuild world

theorem ofPipe (h : pipe.CountsItems setting source sink conf unused document) (mode : Mode)
    (context : RunContext) (world : World) :
    ∃ later, (PipeRun.ofPipe setting mode none context pipe).run.run world =
      some (.ok (.start mode none sink (.closed [] (.counting mode source sink conf))), later) := by
  obtain ⟨middle, hfetch⟩ := h.run_addStep_fetching mode context world
  obtain ⟨later, hcount⟩ := h.run_addStep_counting mode context middle
  have hlast : pipe.plan.last? = some (.counting source sink unused) := by
    rw [Plan.last?, h.steps]
    rfl
  have hsteps :
      ((setting.workshop mode context).addSteps (.start sink) pipe.plan.steps).run.run world =
        some (.ok (.counted mode source sink conf), later) := by
    rw [h.steps]
    refine run_run_bind_eq_some_iff.mpr (.inr ⟨_, middle, hfetch, ?_⟩)
    exact run_run_bind_eq_some_iff.mpr (.inr ⟨_, later, hcount, rfl⟩)
  have hassemble : ∃ last, ((setting.workshop mode context).assemble pipe).run.run world =
      some (.ok (.counted mode source sink conf), last) := by
    obtain ⟨last, hreported⟩ := Run.run_lift_report
      (.assembled mode (Assembly.counted mode source sink conf).size pipe.diagram.name) later
    unfold Workshop.assemble
    rw [hlast]
    refine ⟨last, run_run_bind_eq_some_iff.mpr (.inr ⟨_, later, hsteps, ?_⟩)⟩
    exact run_run_bind_eq_some_iff.mpr (.inr ⟨(), last, hreported, rfl⟩)
  obtain ⟨last, hassemble⟩ := hassemble
  have htake : (Assembly.counted mode source sink conf).takeOutput =
      .ok (.closed [] (.counting mode source sink conf), []) := by
    have hlookup : (sink == source) = false := by simpa using h.distinct.symm
    simp only [Assembly.takeOutput, Assembly.take, Assembly.counted, Assembly.start, List.lookup,
      hlookup, BEq.rfl]
    simp [Assembly.setSlot, Assembly.unused?, h.distinct]
  have houtput : ((setting.workshop mode context).output pipe).run.run world =
      some (.ok (.closed [] (.counting mode source sink conf)), last) := by
    refine run_run_bind_eq_some_iff.mpr (.inr ⟨_, last, hassemble, ?_⟩)
    rw [htake]
    rfl
  refine ⟨last, run_run_bind_eq_some_iff.mpr (.inr ⟨_, last, houtput, ?_⟩)⟩
  rw [hlast]
  rfl

/-- Fetching gives the items of the document. The record that it fetches them for is the sentinel's,
so that it does so once. -/
theorem supplies (h : pipe.CountsItems setting source sink conf unused document) (mode : Mode)
    (junctions : List (Junction Stage)) (world : World) : ∃ done, Scene.Supplies setting
      ⟨.fetched mode source conf, junctions, world⟩ ((Items.ofDocument document).map .ok) done := by
  obtain ⟨path, text, hpath, hread, hdocument⟩ := h.found
  have hfetch (world : World) : ∃ later, (Job.fetch setting conf Record.sentinel).run world =
      some (.ok (Items.ofDocument document), later) := by
    obtain ⟨later, hfetched⟩ := Job.run_fetch setting hpath world
    rw [hread, Fetch.records, hdocument] at hfetched
    exact ⟨later, hfetched⟩
  obtain ⟨worked, hworks⟩ := Job.Works.of_fetch mode hfetch ⟨.sentinel, junctions, world⟩
  have hasked : Scene.Attains setting ⟨.sentinel, junctions, world⟩ (.answer (.ok Record.sentinel))
      ⟨.sentinel, junctions, world⟩ := .ready (.ready rfl) nofun
  have hbatches := Scene.Supplies.batches (.last hasked rfl hworks)
  obtain ⟨reached, htagged⟩ := Scene.Supplies.tagged source 0 hbatches
  exact ⟨_, htagged⟩

/-- The number of the items before the first that has the key of the sentinel. -/
def number (document : Value) : Nat :=
  ((Items.ofDocument document).takeWhile fun item => !item.isSentinel).length

/-- All items are before the key exactly if none has it. -/
theorem number_eq_length_iff (document : Value) :
    number document = (Items.ofDocument document).length ↔
      ∀ item ∈ Items.ofDocument document, item.isSentinel = false := by
  have hbegins := List.takeWhile_prefix (l := Items.ofDocument document) fun item => !item.isSentinel
  rw [number]
  constructor
  · intro hlength item hitem
    have hall := List.takeWhile_eq_self_iff.mp (hbegins.eq_of_length hlength) item hitem
    simpa using hall
  · intro hnone
    rw [List.takeWhile_eq_self_iff.mpr fun item hitem => by simp [hnone item hitem]]

/-- Counting comes to the number of the items before the first that has the key. -/
theorem attains (h : pipe.CountsItems setting source sink conf unused document) (mode : Mode)
    (world : World) :
    ∃ input counted junctions later, Scene.Attains setting
      ⟨.counting mode source sink conf, [], world⟩ (.answer (.ok (Tally.record (number document))))
        ⟨.tagged sink 1 (.tally ⟨input, counted, true⟩), junctions, later⟩ := by
  obtain ⟨done, hsupplies⟩ := h.supplies mode [] world
  obtain ⟨input, counted, junctions, later, hattains⟩ := hsupplies.tally_attains 0
  rw [Answer.beforeKey_records, Tally.verdict_records, Nat.zero_add] at hattains
  exact ⟨input, counted, junctions, later, hattains.stop (.tagged sink 0) rfl⟩

end Pipe.CountsItems

namespace Stage

variable {junctions : List (Junction Stage)} {out : Stage} {world : World} {poll : Poll}
  {after : Scene}

theorem asks_closed (h : Scene.Settles setting ⟨out, junctions, world⟩ poll after) :
    (Stage.closed junctions out).Asks setting world poll (.closed after.junctions after.stage)
      after.world := by
  obtain ⟨least, hcomes⟩ := h.poll
  refine ⟨least + 1, PipeRun.run_askOutput.mpr ⟨[], ?_⟩⟩
  simp only [Scene.Comes, Stage.poll, Flow.comes_bind, Flow.comes_lift]
  exact ⟨_, _, _, ⟨rfl, hcomes least (Nat.le_refl least)⟩, Flow.comes_pure.mpr ⟨rfl, rfl, rfl⟩⟩

/-- What the output of a pipe attains it comes to when it is awaited. -/
theorem awaits_closed {before : Scene} (h : Scene.Attains setting before poll after)
    (hfresh : before.world.alarm = none) : (Stage.closed before.junctions before.stage).Awaits setting
      before.world poll.awaited (.closed after.junctions after.stage) after.world := by
  induction h with
  | ready h hready =>
      have hasks := asks_closed h
      rw [← World.fresh_eq hfresh] at hasks
      exact .ready hasks hready
  | again h halarm _ ih =>
      have hasks := asks_closed h
      rw [← World.fresh_eq hfresh] at hasks
      exact .again hasks halarm (ih rfl)

end Stage

namespace PipeRun

variable {run : PipeRun}

/-- A run whose stage has ended gives nothing but the end. -/
theorem pullMany_of_dry (hlimit : run.limit = none) (hdry : run.Dry setting) (count : Nat)
    (world : World) : ∃ last later least, ∀ budget, least ≤ budget →
      (run.pullMany setting budget count).run world =
        some ((List.replicate count none, last), later) := by
  induction count generalizing run world with
  | zero => exact ⟨run, world, 0, fun _ _ => rfl⟩
  | succ count ih =>
      cases hfinished : run.finished with
      | true =>
          obtain ⟨last, later, least, hrest⟩ := ih hlimit hdry world
          refine ⟨last, later, least, fun budget hbudget => ?_⟩
          refine run_bind_eq_some_iff.mpr ⟨(none, run), world, run_next_finished hfinished, ?_⟩
          exact run_bind_eq_some_iff.mpr ⟨_, later, hrest budget hbudget, rfl⟩
      | false =>
          have hended : run.stage.Asks setting world.fresh .ended run.stage world.fresh :=
            asks_of_gives (hdry world.fresh) rfl rfl
          have hawaits : run.stage.Awaits setting world .ended run.stage world.fresh :=
            .ready hended nofun
          obtain ⟨first, hnext⟩ := next_of_awaits hfinished hlimit hawaits
          obtain ⟨last, later, least, hrest⟩ :=
            @ih { run with finished := run.fused } hlimit hdry world.fresh
          refine ⟨last, later, max first least, fun budget hbudget => ?_⟩
          refine run_bind_eq_some_iff.mpr
            ⟨_, _, hnext budget (le_of_max_le_left hbudget), ?_⟩
          exact run_bind_eq_some_iff.mpr
            ⟨_, later, hrest budget (le_of_max_le_right hbudget), rfl⟩

end PipeRun

namespace Pipe.CountsItems

variable {pipe : Pipe} {source sink : ModuleId} {conf unused : Conf} {document : Value} {mode : Mode}

/-- A run of the pipe gives one record, with the number, and then the end. -/
theorem pullMany (h : pipe.CountsItems setting source sink conf unused document) {run : PipeRun}
    (hopen : run.finished = false) (hlimit : run.limit = none)
    (hstage : run.stage = .closed [] (.counting mode source sink conf)) (count : Nat)
    (world : World) : ∃ last later least, ∀ budget, least ≤ budget →
      (run.pullMany setting budget (count + 1)).run world = some
        ((some (.ok (Tally.record (number document))) :: List.replicate count none, last), later) := by
  obtain ⟨input, counted, junctions, middle, hattains⟩ := h.attains mode world.fresh
  have hawaits := (Stage.awaits_closed hattains rfl).congr (World.fresh_fresh world)
  rw [← hstage] at hawaits
  obtain ⟨first, hfirst⟩ := PipeRun.next_of_awaits hopen hlimit hawaits
  have hdry (world : World) : Scene.Gives setting
      ⟨.closed junctions (.tagged sink 1 (.tally ⟨input, counted, true⟩)), [], world⟩ .ended
      ⟨.closed junctions (.tagged sink 1 (.tally ⟨input, counted, true⟩)), [], world⟩ := by
    have htally : Scene.Gives setting ⟨.tally ⟨input, counted, true⟩, junctions, world⟩ .ended
        ⟨.tally ⟨input, counted, true⟩, junctions, world⟩ := .dry (.tally input counted)
    have htagged : Scene.Gives setting
        ⟨(Hole.tagged sink 1).fill (.tally ⟨input, counted, true⟩), junctions, world⟩ .ended
        ⟨.tagged sink 1 (.tally ⟨input, counted, true⟩), junctions, world⟩ := .stop htally rfl
    exact .closed htagged
  obtain ⟨last, later, rest, hrest⟩ := @PipeRun.pullMany_of_dry setting
    (run.settle (.closed junctions (.tagged sink 1 (.tally ⟨input, counted, true⟩)))
      (.answer (.ok (Tally.record (number document))))).2 hlimit hdry count middle
  refine ⟨last, later, max first rest, fun budget hbudget => ?_⟩
  refine run_bind_eq_some_iff.mpr ⟨_, _, hfirst budget (le_of_max_le_left hbudget), ?_⟩
  exact run_bind_eq_some_iff.mpr ⟨_, later, hrest budget (le_of_max_le_right hbudget), rfl⟩

/-- Running the pipe comes to that in either mode. -/
theorem outcome (h : pipe.CountsItems setting source sink conf unused document) (mode : Mode)
    {context : RunContext} (hcontext : context.onlyDescribes = false) (count : Nat)
    (world : World) : ∃ later least, ∀ budget, least ≤ budget →
      (PipeRun.outcome setting mode budget context pipe (count + 1)).run world = some
        (.ok (some (.ok (Tally.record (number document))) :: List.replicate count none), later) := by
  obtain ⟨started, hstart⟩ : ∃ middle, (PipeRun.ofContext setting mode none context pipe).run world =
      some (.ok (.running (.start mode none sink (.closed [] (.counting mode source sink conf)))),
        middle) := by
    obtain ⟨middle, hreported⟩ : ∃ middle, (Run.report (.running mode pipe.diagram.name)).run world =
        some ((), middle) := ⟨_, rfl⟩
    obtain ⟨later, hpipe⟩ := h.ofPipe mode context middle
    unfold PipeRun.ofContext PipeDescription.ofRun?
    rw [hcontext]
    refine ⟨later, run_bind_eq_some_iff.mpr ⟨(), middle, hreported, ?_⟩⟩
    exact run_bind_eq_some_iff.mpr ⟨_, later, hpipe, rfl⟩
  have hlimit : (PipeRun.start mode none sink (.closed [] (.counting mode source sink conf))).limit =
      none := ite_self none
  obtain ⟨last, later, least, hpulls⟩ := h.pullMany rfl hlimit rfl count started
  refine ⟨later, least, fun budget hbudget => ?_⟩
  refine run_bind_eq_some_iff.mpr ⟨_, started, hstart, ?_⟩
  exact run_bind_eq_some_iff.mpr ⟨_, later, hpulls budget hbudget, rfl⟩

end Pipe.CountsItems

open Answer (beforeKey throughKey)

/-- What comes of the records with the key of the sentinel, whoever gives them. -/
structure Setting.KeyEnds (setting : Setting) : Prop where
  /-- A tally gives one answer, its verdict on what comes before the key. That is its verdict on all
  of its input exactly if nothing is cut off or an error comes first. -/
  tallies : ∀ input answers after, Scene.Supplies setting input answers after →
    (∀ given, (∃ done, Scene.Supplies setting
        ⟨.tally (.start input.stage), input.junctions, input.world⟩ given done) ↔
          given = [Tally.verdict 0 (beforeKey answers)]) ∧
      (Tally.verdict 0 (beforeKey answers) = Tally.verdict 0 answers ↔
        beforeKey answers = answers ∨ ∃ error, .error error ∈ beforeKey answers)
  /-- Of what would come of all the answers of an input, a stage that gives batches gives what comes
  of them up to the first record with the key, and all of it if that is the last one. -/
  batches : ∀ task input taken given after,
    Task.Handles setting task (fun _ => false) input taken given after →
      ∃ shorter rest reached, given = shorter ++ rest ∧ (throughKey taken = taken → rest = []) ∧
        Task.Handles setting task Record.isSentinel input (throughKey taken) shorter reached ∧
        ∀ answers, (∃ done, Scene.Supplies setting
          ⟨.batches task (.start input.stage), input.junctions, input.world⟩ answers done) ↔
            answers = shorter
  /-- A pipe that counts the items of a document gives the number of those before the key, which is
  the number of all items exactly if none has the key. -/
  documents : ∀ pipe source sink conf unused document,
    Pipe.CountsItems setting pipe source sink conf unused document →
      (∀ mode context, context.onlyDescribes = false → ∀ count world, ∃ later least,
        ∀ budget, least ≤ budget →
          (PipeRun.outcome setting mode budget context pipe (count + 1)).run world = some
            (.ok (some (.ok (Tally.record (Pipe.CountsItems.number document))) ::
              List.replicate count none), later)) ∧
      (Pipe.CountsItems.number document = (Items.ofDocument document).length ↔
        ∀ item ∈ Items.ofDocument document, item.isSentinel = false)

/-- A record with the key of the sentinel ends the input of tallies and of stages that give batches,
whichever upstream has given it. -/
theorem Setting.keyEnds (setting : Setting) : setting.KeyEnds where
  tallies input answers after h := by
    obtain ⟨done, hsupplies⟩ := h.tally 0
    exact ⟨hsupplies.iff_eq, Tally.verdict_beforeKey answers⟩
  batches task input taken given after h := by
    obtain ⟨shorter, rest, reached, hgiven, hall, hhandles⟩ := h.cut
    exact ⟨shorter, rest, reached, hgiven, hall, hhandles, (Scene.Supplies.batches hhandles).iff_eq⟩
  documents pipe source sink conf unused document h := by
    exact ⟨fun mode context hcontext => h.outcome mode hcontext,
      Pipe.CountsItems.number_eq_length_iff document⟩

namespace Pipe

/-- The configuration of a module that reads a file. -/
def newsConf : Value :=
  .object ⟨[("URL", .object ⟨[("value", .text "news.json")]⟩)]⟩

/-- The description of a pipe that reads a file and counts the items in it. -/
def newsCount : Value :=
  .object ⟨[
    ("modules", .list [
      .object ⟨[("conf", newsConf), ("id", .text "source"), ("type", .text "fetch")]⟩,
      Diagram.plainModule "sink" "count"]),
    ("wires", .list [Diagram.plainWire "feed" "source" "sink"])]⟩

/-- Every file holds this text. -/
def holding (text : String) : Setting :=
  ⟨fun _ => .ok text, default, .standard⟩

theorem countsItems_newsCount {text : String} {document : Value}
    (hdocument : Value.read? text = some document) : ∃ pipe, compile newsCount "pipe" = .ok pipe ∧
      pipe.CountsItems (holding text) ⟨"source"⟩ ⟨"sink"⟩ (.ofValue newsConf) .empty document := by
  have hok : (compile newsCount "pipe").map (fun pipe => pipe.plan.steps) =
      .ok [.fetching ⟨"source"⟩ (.ofValue newsConf), .counting ⟨"source"⟩ ⟨"sink"⟩ .empty] := by cbv
  obtain ⟨pipe, hpipe, hsteps⟩ := map_eq_ok_iff.mp hok
  exact ⟨pipe, hpipe, {
    steps := hsteps
    distinct := by decide
    fetches := @Registry.get_standard_name .fetch
    counts := @Registry.get_standard_name .count
    checked := rfl
    found := ⟨"news.json", text, rfl, rfl, hdocument⟩ }⟩

/-- What is in a file with three items. -/
def newsText : String :=
  "[\x7b\"title\": \"a\"\x7d, \x7b\"title\": \"b\"\x7d, \x7b\"title\": \"c\"\x7d]"

/-- What is in a file with two items, of which the first has the key. -/
def keyedText : String :=
  "[\x7b\"forever\": 1\x7d, \x7b\"title\": \"b\"\x7d]"

end Pipe

open Pipe (compile newsCount newsText keyedText holding)

/-- An error before the key is the answer of a tally, and three items are counted. -/
theorem Setting.keyEnds_of_news :
    (∃ input after done,
      Scene.Supplies (holding newsText) input [.error .json, .ok Record.sentinel] after ∧
      Scene.Supplies (holding newsText)
        ⟨.tally (.start input.stage), input.junctions, input.world⟩ [.error .json] done) ∧
    ∃ pipe document, compile newsCount "pipe" = .ok pipe ∧
      Value.read? newsText = some document ∧ (Items.ofDocument document).length = 3 ∧
      ∀ mode world, ∃ later least, ∀ budget, least ≤ budget →
        (PipeRun.outcome (holding newsText) mode budget .testing pipe 2).run world =
          some (.ok [some (.ok (Tally.record 3)), none], later) := by
  constructor
  · obtain ⟨input, after, hsupplies⟩ :=
      Scene.Supplies.of_answers (holding newsText) [.error .json, .ok Record.sentinel]
    obtain ⟨hgives, -⟩ := (Setting.keyEnds (holding newsText)).tallies input _ after hsupplies
    obtain ⟨done, htally⟩ := (hgives [.error .json]).mpr rfl
    exact ⟨input, after, done, hsupplies, htally⟩
  have htext : (Value.read? newsText).map (fun document =>
      (Items.ofDocument document).map Record.isSentinel) = some [false, false, false] := by cbv
  obtain ⟨document, hdocument, hkeys⟩ := Option.map_eq_some_iff.mp htext
  obtain ⟨pipe, hpipe, hcounts⟩ := Pipe.countsItems_newsCount hdocument
  have hlength : (Items.ofDocument document).length = 3 := by
    simpa using congrArg List.length hkeys
  obtain ⟨houtcome, hnumber⟩ := (Setting.keyEnds (holding newsText)).documents _ _ _ _ _ _ hcounts
  have hall : Pipe.CountsItems.number document = 3 := by
    rw [hnumber.mpr, hlength]
    intro item hitem
    have hkey : item.isSentinel ∈ (Items.ofDocument document).map Record.isSentinel :=
      List.mem_map_of_mem hitem
    rw [hkeys] at hkey
    simpa using hkey
  rw [hall] at houtcome
  exact ⟨pipe, document, hpipe, hdocument, hlength, fun mode => houtcome mode .testing rfl 1⟩

/-- Two items are counted as none, since the first has the key of the sentinel. -/
theorem Pipe.keyed_item_uncounted : ∃ pipe document, compile newsCount "pipe" = .ok pipe ∧
    Value.read? keyedText = some document ∧ (Items.ofDocument document).length = 2 ∧
    Tally.record 0 ≠ Tally.record 2 ∧ ∀ mode world, ∃ later least, ∀ budget, least ≤ budget →
      (PipeRun.outcome (holding keyedText) mode budget .testing pipe 2).run world =
        some (.ok [some (.ok (Tally.record 0)), none], later) := by
  have htext : (Value.read? keyedText).map (fun document => ((Items.ofDocument document).length,
      Pipe.CountsItems.number document)) = some (2, 0) := by cbv
  obtain ⟨document, hdocument, hitems⟩ := Option.map_eq_some_iff.mp htext
  obtain ⟨hlength, hnumber⟩ := Prod.mk.inj hitems
  obtain ⟨pipe, hpipe, hcounts⟩ := Pipe.countsItems_newsCount hdocument
  refine ⟨pipe, document, hpipe, hdocument, hlength, ?_, fun mode => ?_⟩
  · exact fun h => absurd (Tally.record_injective h) (by decide)
  · rw [← hnumber]
    exact hcounts.outcome mode rfl 1

end Pipework

import Pipework.Proofs.Conf.Texts
import Pipework.Proofs.Fetch.Account

/-! # Sources that are refused before the first record

A source that is the same for all records is checked when the stage is built, so that a stage that
has been built fails at a record only if a file cannot be read or holds no document. There is one
exception: a subkey that is no text binds the source to nothing, but counts as a subkey when the stage
is built. Such a stage is built whatever its source is, and a source that cannot be named is an error
at each of its records.
-/

namespace Pipework

variable {setting : Setting} {conf : Conf}

namespace Fetch

/-- What is wrong with a text that names no source. -/
inductive Misnamed : PipeError → Prop
  | missing : Misnamed (.badField urlField.name .missing)
  | unsupported (url : String) : Misnamed (.badField urlField.name (.unsupportedSource url))

/-- What is found out only by reading a source. -/
inductive Unreadable : PipeError → Prop
  | file (error : FileError) : Unreadable (.file error)
  | json : Unreadable .json

variable {item : Option Record} {error : PipeError}

/-- The path depends on the text of the field and on nothing else. -/
theorem path_congr {other : Option Record}
    (h : conf.heldText urlField.name item = conf.heldText urlField.name other) :
    path conf item = path conf other := by
  unfold path
  rw [urlField, Conf.nonemptyText_eq, Conf.nonemptyText_eq]
  rw [urlField, ConfField.text] at h
  rw [h]

theorem misnamed_of_path (h : path conf item = .error error) : Misnamed error := by
  unfold path at h
  rw [urlField, Conf.nonemptyText_eq] at h
  generalize conf.heldText "URL" item = url at h
  split at h
  · cases h
    exact .missing
  · change localPath url = _ at h
    unfold localPath at h
    split at h
    · cases h
    · split at h
      · cases h
        exact .unsupported url
      · cases h

theorem unreadable_of_records {text : Except FileError String} (h : records text = .error error) :
    Unreadable error := by
  unfold records at h
  split at h
  · cases h
    exact .file _
  · split at h
    · cases h
    · cases h
      exact .json

theorem checkConf_eq_error_iff :
    checkConf conf = .error error ↔ isBound conf = false ∧ path conf none = .error error := by
  unfold checkConf
  cases isBound conf with
  | true => simp
  | false => cases path conf none <;> simp [Except.map]

/-- An error among what is given for an answer is that answer, or comes of a source that cannot be
named or read. -/
theorem mem_block {answer : Answer} (h : .error error ∈ block setting conf answer) :
    answer = .error error ∨ ∃ item, answer = .ok item ∧
      (path conf (some item) = .error error ∨ Unreadable error) := by
  cases answer with
  | error other =>
      rw [block, List.mem_singleton] at h
      exact .inl h.symm
  | ok item =>
      refine .inr ⟨item, rfl, ?_⟩
      rw [block] at h
      cases hpath : path conf (some item) with
      | error other =>
          rw [batch, hpath] at h
          exact .inl (congrArg Except.error (Except.error.inj (List.mem_singleton.mp h)).symm)
      | ok path =>
          rw [batch, hpath, Except.bind] at h
          cases hrecords : records (setting.read path) with
          | error other =>
              rw [hrecords] at h
              cases List.mem_singleton.mp h
              exact .inr (unreadable_of_records hrecords)
          | ok records =>
              rw [hrecords, Batches.answersOf] at h
              simp at h

section Building

variable {mode : Mode} {args : Arguments Factory}

/-- The stage that fetches for the records of the input. -/
def stageOf (mode : Mode) (args : Arguments Factory) : Stage :=
  .batches (.fetch args.conf mode) (.start args.input)

theorem run_build (mode : Mode) (args : Arguments Factory) (world : World) :
    (Builtin.fetch.build mode args).run world =
      some ((checkConf args.conf).map fun _ => .single (stageOf mode args), world) :=
  rfl

theorem run_build_eq_ok {built : Built} {world later : World}
    (h : (Builtin.fetch.build mode args).run world = some (.ok built, later)) :
    checkConf args.conf = .ok () ∧ built = .single (stageOf mode args) := by
  rw [run_build] at h
  cases hcheck : checkConf args.conf with
  | error error =>
      rw [hcheck] at h
      cases h
  | ok checked =>
      rw [hcheck] at h
      cases h
      exact ⟨rfl, rfl⟩

/-- An error that is given has been taken, or comes of a record that has been taken. -/
theorem error_of_accounted {polls taken : List Poll} {left : List Answer}
    (haccount : polls.filterMap Poll.answer? ++ left =
      (taken.filterMap Poll.answer?).flatMap (block setting conf))
    (h : .answer (.error error) ∈ polls) : .answer (.error error) ∈ taken ∨
      ∃ item, .answer (.ok item) ∈ taken ∧
        (path conf (some item) = .error error ∨ Unreadable error) := by
  have hgiven := List.mem_append_left left (Poll.mem_answers.mpr h)
  rw [haccount] at hgiven
  obtain ⟨answer, hanswer, hblock⟩ := List.mem_flatMap.mp hgiven
  have htaken := Poll.mem_answers.mp hanswer
  rcases mem_block hblock with rfl | ⟨item, rfl, hreason⟩
  · exact .inl htaken
  · exact .inr ⟨item, htaken, hreason⟩

/-- What comes of an answer of the input is what the stage comes to, if anything comes of it. -/
theorem attains_first {junctions : List (Junction Stage)} {world : World} {given answer : Answer}
    {rest : List Answer} {asked : Scene}
    (h : Scene.Attains setting ⟨args.input, junctions, world⟩ (.answer given) asked)
    (hblock : block setting args.conf given = answer :: rest) :
    ∃ after, Scene.Attains setting ⟨stageOf mode args, junctions, world⟩ (.answer answer) after := by
  cases given with
  | error error =>
      cases hblock
      exact ⟨_, h.stop (.input (.fetch args.conf mode)) rfl⟩
  | ok item =>
      obtain ⟨worked, hworks⟩ :=
        Job.Works.of_fetch mode (run_fetch setting args.conf item) asked
      have hready : Scene.Attains setting ⟨.batches (.fetch args.conf mode)
          ⟨worked.stage, Batches.answersOf (batch setting args.conf item), none, item.isSentinel⟩,
            worked.junctions, worked.world⟩ (.answer answer)
          ⟨.batches (.fetch args.conf mode) ⟨worked.stage, rest, none, item.isSentinel⟩,
            worked.junctions, worked.world⟩ := by
        rw [block] at hblock
        rw [hblock]
        exact .ready (.ready rfl) nofun
      have hworked := hworks.attains (.fetch args.conf mode) item.isSentinel hready
      exact ⟨_, h.go (.input (.fetch args.conf mode)) rfl hworked⟩

end Building

/-- What a stage gives that fetches for the records of its input. -/
structure Serves (setting : Setting) (args : Arguments Factory) (stage : Stage) : Prop where
  /-- However often the stage is asked, it gives what comes of the answers that it has taken, one
  after the other. An error is one of the input or comes of reading, unless a subkey is configured and
  the source cannot be named. -/
  accounts : ∀ polls last, stage.Polled setting polls last →
    ∃ taken rest left, args.input.Polled setting taken rest ∧
      polls.filterMap Poll.answer? ++ left =
        (taken.filterMap Poll.answer?).flatMap (block setting args.conf) ∧
      ∀ error, .answer (.error error) ∈ polls → .answer (.error error) ∈ taken ∨
        (∃ item, .answer (.ok item) ∈ taken) ∧
          (Unreadable error ∨ isBound args.conf = true ∧ path args.conf none = .error error)
  /-- When the input has its first answer the stage has what comes of it, if anything does. -/
  first : ∀ junctions world given asked answer rest,
    Scene.Attains setting ⟨args.input, junctions, world⟩ (.answer given) asked →
      block setting args.conf given = answer :: rest →
        ∃ after, Scene.Attains setting ⟨stage, junctions, world⟩ (.answer answer) after

/-- How a fetching stage is built whose source is the same for all records, and what may become of
its records. -/
structure Upfront (setting : Setting) (mode : Mode) (args : Arguments Factory) : Prop where
  /-- Building fails exactly if the source cannot be named and no subkey is configured. -/
  refuses : ∀ world, ∃ outcome, (Builtin.fetch.build mode args).run world = some (outcome, world) ∧
    ∀ error, outcome = .error error ↔ isBound args.conf = false ∧ path args.conf none = .error error
  /-- The error of a source that cannot be named is one about the field. -/
  reasons : ∀ error, path args.conf none = .error error → Misnamed error
  /-- A stage that has been built gives what comes of the answers of its input. -/
  serves : ∀ built world later,
    (Builtin.fetch.build mode args).run world = some (.ok built, later) →
      ∃ stage, built = .single stage ∧ Serves setting args stage
  /-- With a subkey it is built, and if the source cannot be named the error comes of every record. -/
  late : isBound args.conf = true → ∀ error, path args.conf none = .error error →
    (∀ world, ∃ stage,
      (Builtin.fetch.build mode args).run world = some (.ok (.single stage), world)) ∧
    ∀ item, block setting args.conf (.ok item) = [.error error]

end Fetch

open Fetch

/-- A source that is the same for all records is refused before the first of them, unless there is a
subkey that is no text. -/
theorem Builtin.fetch_upfront (setting : Setting) (mode : Mode) (args : Arguments Factory)
    (hfixed : args.conf.subkey? urlField.name = none) : Upfront setting mode args := by
  have hpath (item : Option Record) : path args.conf item = path args.conf none :=
    path_congr (Conf.heldText_of_subkey? hfixed)
  refine
    { refuses := fun world => ⟨_, run_build mode args world, fun error => ?_⟩
      reasons := fun _ => misnamed_of_path
      serves := fun built world later h => ?_
      late := fun hbound error herror => ⟨fun world => ⟨stageOf mode args, ?_⟩, fun item => ?_⟩ }
  · rw [← checkConf_eq_error_iff]
    cases checkConf args.conf <;> simp [Except.map]
  · obtain ⟨hchecked, rfl⟩ := run_build_eq_ok h
    refine ⟨_, rfl, fun polls last hpolled => ?_, fun _ _ _ _ _ _ => attains_first⟩
    have howes : Owes setting args.conf mode (stageOf mode args) args.input [] :=
      .idle args.input [] false
    obtain ⟨taken, rest, left, htaken, -, haccount⟩ := howes.polled hpolled
    refine ⟨taken, rest, left, htaken, haccount, fun error herror => ?_⟩
    refine (error_of_accounted haccount herror).imp_right ?_
    rintro ⟨item, hitem, hmisnamed | hunreadable⟩
    · -- What is fixed has been checked, unless it counts as bound.
      rw [hpath] at hmisnamed
      refine ⟨⟨item, hitem⟩, .inr ⟨Bool.eq_true_of_not_eq_false fun hunbound => ?_, hmisnamed⟩⟩
      cases hchecked.symm.trans (checkConf_eq_error_iff.mpr ⟨hunbound, hmisnamed⟩)
    · exact ⟨⟨item, hitem⟩, .inl hunreadable⟩
  · have hchecked : checkConf args.conf = .ok () := if_pos hbound
    rw [run_build, hchecked]
    rfl
  · rw [block, batch, hpath, herror]
    rfl

namespace Fetch

/-- What a module is built from that fetches what a descriptor says, once. -/
def fetching (descriptor : Value) : Arguments Factory :=
  ⟨⟨"source"⟩, .testing, .sentinel, ⟨.single urlField.name descriptor⟩, [], none, none⟩

/-- No file is there. -/
def nowhere : Setting :=
  ⟨fun _ => .error default, default, .standard⟩

/-- A descriptor of a source with a subkey that is no text. -/
def numbered : Value :=
  .object ⟨[("subkey", .int 5)]⟩

end Fetch

theorem Builtin.fetch_upfront_of_two :
    (fetching (.text "https://feed")).conf.subkey? urlField.name = none ∧
    Upfront nowhere .async (fetching (.text "https://feed")) ∧
    isBound (fetching (.text "https://feed")).conf = false ∧
    path (fetching (.text "https://feed")).conf none =
      .error (.badField "URL" (.unsupportedSource "https://feed")) ∧
    Upfront nowhere .sync (fetching (.text "file://feed.json")) ∧
    checkConf (fetching (.text "file://feed.json")).conf = .ok () ∧
    path (fetching (.text "file://feed.json")).conf none = .ok "feed.json" :=
  ⟨rfl, Builtin.fetch_upfront nowhere .async _ rfl, rfl, rfl,
    Builtin.fetch_upfront nowhere .sync _ rfl, rfl, rfl⟩

/-- Without a text for a subkey and without a source the stage is built all the same, and the first
time that it is asked it fails for want of a source. -/
theorem Fetch.numbered_fails_late : (fetching numbered).conf.subkey? urlField.name = none ∧
    ∃ stage last, (Builtin.fetch.build .sync (fetching numbered)).run {} =
        some (.ok (.single stage), {}) ∧
      stage.Polled nowhere [.answer (.error (.badField "URL" .missing))] last := by
  have hfetch : (Job.fetch nowhere (fetching numbered).conf Record.sentinel).run {} =
      some (.error (.badField "URL" .missing), {}) := rfl
  have hinput : Scene.Settles nowhere ⟨.sentinel, [], {}⟩ (.answer (.ok Record.sentinel))
      ⟨.sentinel, [], {}⟩ := .ready rfl
  have hgiven : Scene.Settles nowhere
      ⟨.batches (.fetch (fetching numbered).conf .sync) ⟨.sentinel, [], some
        (.load (fetching numbered).conf Record.sentinel false), Record.sentinel.isSentinel⟩, [], {}⟩
      (.answer (.error (.badField "URL" .missing))) _ := .move (.load hfetch) (.ready rfl)
  have hfirst : Scene.Settles nowhere
      ⟨(Hole.input (.fetch (fetching numbered).conf .sync)).fill .sentinel, [], {}⟩
      (.answer (.error (.badField "URL" .missing))) _ := hinput.go rfl hgiven
  obtain ⟨least, hcomes⟩ := hfirst.poll
  exact ⟨rfl, _, _, rfl, .cons (hcomes least le_rfl) (.nil _)⟩

end Pipework

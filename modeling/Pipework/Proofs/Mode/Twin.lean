import Pipework.Proofs.Stage.Gives

/-! # Stages that differ in their mode only

Stages of two modes are twins if they are the same but for the mode that their tasks carry and for
who has to wait. A stage that is its own twin is one that pipes are made of: no part of it is a
fixture, and it refers to no junction beyond a bound.
-/

namespace Pipework

/-- The factory builds a built-in type or runs one of some pipes. -/
def Factory.Among (known : Pipe → Prop) : Factory → Prop
  | .builtin _ => True
  | .fixture _ => False
  | .pipe inner => known inner

/-- The embedded module and those that it embeds in its turn have such factories. -/
inductive Embed.Among (known : Pipe → Prop) : Embed Factory → Prop
  | intro {embed : Embed Factory} (hfactory : embed.factory.Among known)
      (hnested : ∀ inner, embed.nested = some inner → Among known inner) : Among known embed

inductive Task.Twin (known : Pipe → Prop) (mode other : Mode) : Task → Task → Prop
  | fetch (conf : Conf) : Twin known mode other (.fetch conf mode) (.fetch conf other)
  | loop (rule : LoopRule) {embed : Embed Factory} (hembed : embed.Among known) :
      Twin known mode other (.loop rule embed mode) (.loop rule embed other)

/-- Stages of two modes that differ in nothing else and refer to no junction from a bound on. Only
a stage that may have to wait is about to. -/
inductive Stage.Twin (known : Pipe → Prop) (mode other : Mode) : Nat → Stage → Stage → Prop
  | sentinel {bound : Nat} : Twin known mode other bound .sentinel .sentinel
  | constant {bound : Nat} (record : Record) :
      Twin known mode other bound (.constant record) (.constant record)
  | once {bound : Nat} (record? : Option Record) :
      Twin known mode other bound (.once record?) (.once record?)
  | tagged {bound : Nat} {first second : Stage} (id : ModuleId) (index : Nat)
      (hinner : Twin known mode other bound first second) :
      Twin known mode other bound (.tagged id index first) (.tagged id index second)
  | mapped {bound : Nat} {first second : Stage} (transform : Transform)
      (hinner : Twin known mode other bound first second) :
      Twin known mode other bound (.mapped transform first) (.mapped transform second)
  | tally {bound : Nat} {first second : Stage} (count : Nat) (done : Bool)
      (hinput : Twin known mode other bound first second) :
      Twin known mode other bound (.tally ⟨first, count, done⟩) (.tally ⟨second, count, done⟩)
  | batches {bound : Nat} {task twin : Task} {first second : Stage} (queue : List Answer)
      (last : Bool) (htask : task.Twin known mode other twin)
      (hinput : Twin known mode other bound first second) :
      Twin known mode other bound (.batches task ⟨first, queue, none, last⟩)
        (.batches twin ⟨second, queue, none, last⟩)
  | load {bound : Nat} {task twin : Task} {first second : Stage} {waits lingers : Bool}
      (conf : Conf) (item : Record) (last : Bool) (htask : task.Twin known mode other twin)
      (hinput : Twin known mode other bound first second)
      (hwaits : waits = true → mode = .async) (hlingers : lingers = true → other = .async) :
      Twin known mode other bound (.batches task ⟨first, [], some (.load conf item waits), last⟩)
        (.batches twin ⟨second, [], some (.load conf item lingers), last⟩)
  | instantiate {bound : Nat} {task twin : Task} {first second : Stage} {embed : Embed Factory}
      (rule : LoopRule) (item : Record) (last : Bool) (htask : task.Twin known mode other twin)
      (hinput : Twin known mode other bound first second) (hembed : embed.Among known) :
      Twin known mode other bound
        (.batches task ⟨first, [], some (.instantiate rule embed mode item), last⟩)
        (.batches twin ⟨second, [], some (.instantiate rule embed other item), last⟩)
  | collect {bound : Nat} {task twin : Task} {first second inner embedded : Stage}
      (rule : LoopRule) (item : Record) (found : List Record) (last : Bool)
      (htask : task.Twin known mode other twin)
      (hinput : Twin known mode other bound first second)
      (hinner : Twin known mode other 0 inner embedded) :
      Twin known mode other bound
        (.batches task ⟨first, [], some (.collect rule item inner found), last⟩)
        (.batches twin ⟨second, [], some (.collect rule item embedded found), last⟩)
  | branch {bound : Nat} {place : Nat} (index : Nat) (hplace : place < bound) :
      Twin known mode other bound (.branch place index) (.branch place index)
  | tap {bound : Nat} {place : Nat} (hplace : place < bound) :
      Twin known mode other bound (.tap place) (.tap place)
  | closed {bound : Nat} {left right : List (Junction Stage)} {first second : Stage}
      (houtline : left.map Junction.outline = right.map Junction.outline)
      (hupstream : ∀ place junction twin, left[place]? = some junction →
        right[place]? = some twin →
        Twin known mode other place junction.upstream twin.upstream)
      (hout : Twin known mode other left.length first second) :
      Twin known mode other bound (.closed left first) (.closed right second)

/-- Junctions that differ in the mode of their upstreams only. Each upstream refers to earlier
junctions only. -/
structure Junction.Twins (known : Pipe → Prop) (mode other : Mode)
    (left right : List (Junction Stage)) : Prop where
  outline : left.map Junction.outline = right.map Junction.outline
  upstream : ∀ place junction twin, left[place]? = some junction → right[place]? = some twin →
    Stage.Twin known mode other place junction.upstream twin.upstream

/-- Worlds in which the user says the same from now on, and has been asked the same and the same
files have been read before. -/
structure World.Alike (first second : World) : Prop where
  lines : first.lines = second.lines
  questions : first.questions = second.questions
  reads : first.reads = second.reads

structure Scene.Twin (known : Pipe → Prop) (mode other : Mode) (bound : Nat)
    (first second : Scene) : Prop where
  within : bound ≤ first.junctions.length
  stage : first.stage.Twin known mode other bound second.stage
  junctions : Junction.Twins known mode other first.junctions second.junctions
  world : first.world.Alike second.world

variable {known : Pipe → Prop} {mode other : Mode}

theorem World.Alike.rfl {world : World} : world.Alike world :=
  ⟨Eq.refl _, Eq.refl _, Eq.refl _⟩

theorem World.Alike.symm {first second : World} (h : first.Alike second) : second.Alike first :=
  ⟨h.lines.symm, h.questions.symm, h.reads.symm⟩

theorem World.Alike.trans {first second third : World} (h : first.Alike second)
    (hnext : second.Alike third) : first.Alike third :=
  ⟨h.lines.trans hnext.lines, h.questions.trans hnext.questions, h.reads.trans hnext.reads⟩

namespace Task.Twin

variable {task twin : Task}

theorem symm (h : task.Twin known mode other twin) : twin.Twin known other mode task := by
  cases h with
  | fetch conf => exact .fetch conf
  | loop rule hembed => exact .loop rule hembed

theorem left (h : task.Twin known mode other twin) : task.Twin known mode mode task := by
  cases h with
  | fetch conf => exact .fetch conf
  | loop rule hembed => exact .loop rule hembed

end Task.Twin

namespace Stage.Twin

variable {bound : Nat} {first second : Stage}

theorem symm (h : first.Twin known mode other bound second) :
    second.Twin known other mode bound first := by
  induction h with
  | sentinel => exact .sentinel
  | constant record => exact .constant record
  | once record? => exact .once record?
  | tagged id index _ ih => exact .tagged id index ih
  | mapped transform _ ih => exact .mapped transform ih
  | tally count done _ ih => exact .tally count done ih
  | batches queue last htask _ ih => exact .batches queue last htask.symm ih
  | load conf item last htask _ hwaits hlingers ih =>
      exact .load conf item last htask.symm ih hlingers hwaits
  | instantiate rule item last htask _ hembed ih =>
      exact .instantiate rule item last htask.symm ih hembed
  | collect rule item found last htask _ _ ih ihinner =>
      exact .collect rule item found last htask.symm ih ihinner
  | branch index hplace => exact .branch index hplace
  | tap hplace => exact .tap hplace
  | @closed _ left right _ _ houtline _ _ ihup ih =>
      have hlength : left.length = right.length := by
        simpa using congrArg List.length houtline
      exact .closed houtline.symm
        (fun place junction twin hright hleft => ihup place twin junction hleft hright)
        (hlength ▸ ih)

/-- What has a twin is its own twin. -/
theorem left (h : first.Twin known mode other bound second) :
    first.Twin known mode mode bound first := by
  induction h with
  | sentinel => exact .sentinel
  | constant record => exact .constant record
  | once record? => exact .once record?
  | tagged id index _ ih => exact .tagged id index ih
  | mapped transform _ ih => exact .mapped transform ih
  | tally count done _ ih => exact .tally count done ih
  | batches queue last htask _ ih => exact .batches queue last htask.left ih
  | load conf item last htask _ hwaits _ ih =>
      exact .load conf item last htask.left ih hwaits hwaits
  | instantiate rule item last htask _ hembed ih =>
      exact .instantiate rule item last htask.left ih hembed
  | collect rule item found last htask _ _ ih ihinner =>
      exact .collect rule item found last htask.left ih ihinner
  | branch index hplace => exact .branch index hplace
  | tap hplace => exact .tap hplace
  | @closed _ left right _ _ houtline _ _ ihup ih =>
      refine .closed rfl ?_ ih
      intro place junction twin hjunction htwin
      cases hjunction.symm.trans htwin
      have hlength : left.length = right.length := by
        simpa using congrArg List.length houtline
      obtain ⟨hplace, rfl⟩ := List.getElem?_eq_some_iff.mp hjunction
      exact ihup place _ right[place] hjunction (List.getElem?_eq_getElem (hlength ▸ hplace))

theorem mono {wider : Nat} (h : first.Twin known mode other bound second)
    (hwider : bound ≤ wider) : first.Twin known mode other wider second := by
  induction h with
  | sentinel => exact .sentinel
  | constant record => exact .constant record
  | once record? => exact .once record?
  | tagged id index _ ih => exact .tagged id index (ih hwider)
  | mapped transform _ ih => exact .mapped transform (ih hwider)
  | tally count done _ ih => exact .tally count done (ih hwider)
  | batches queue last htask _ ih => exact .batches queue last htask (ih hwider)
  | load conf item last htask _ hwaits hlingers ih =>
      exact .load conf item last htask (ih hwider) hwaits hlingers
  | instantiate rule item last htask _ hembed ih =>
      exact .instantiate rule item last htask (ih hwider) hembed
  | collect rule item found last htask _ hinner ih _ =>
      exact .collect rule item found last htask (ih hwider) hinner
  | branch index hplace => exact .branch index (hplace.trans_le hwider)
  | tap hplace => exact .tap (hplace.trans_le hwider)
  | closed houtline hupstream hout _ _ => exact .closed houtline hupstream hout

end Stage.Twin

namespace Junction.Twins

variable {here there : List (Junction Stage)}

theorem nil : Twins known mode other [] [] :=
  ⟨rfl, by simp⟩

theorem length_eq (h : Twins known mode other here there) : here.length = there.length := by
  simpa using congrArg List.length h.outline

theorem symm (h : Twins known mode other here there) : Twins known other mode there here where
  outline := h.outline.symm
  upstream place junction twin hthere hhere := (h.upstream place twin junction hhere hthere).symm

/-- Each junction has its twin at the same place. -/
theorem getElem? (h : Twins known mode other here there) {place : Nat} {junction : Junction Stage}
    (hjunction : here[place]? = some junction) :
    ∃ twin, there[place]? = some twin ∧ junction.outline = twin.outline ∧
      junction.upstream.Twin known mode other place twin.upstream := by
  have houtline : (here.map Junction.outline)[place]? = (there.map Junction.outline)[place]? := by rw [h.outline]
  rw [List.getElem?_map, List.getElem?_map, hjunction] at houtline
  cases htwin : there[place]? with
  | none =>
      rw [htwin] at houtline
      cases houtline
  | some twin =>
      rw [htwin] at houtline
      exact ⟨twin, rfl, Option.some.inj houtline, h.upstream place junction twin hjunction htwin⟩

theorem getElem?_none (h : Twins known mode other here there) {place : Nat}
    (hnone : here[place]? = none) : there[place]? = none := by
  rw [List.getElem?_eq_none_iff] at hnone ⊢
  rwa [← h.length_eq]

theorem left (h : Twins known mode other here there) : Twins known mode mode here here where
  outline := rfl
  upstream place junction twin hjunction htwin := by
    cases hjunction.symm.trans htwin
    obtain ⟨twin, -, -, hupstream⟩ := h.getElem? hjunction
    exact hupstream.left

theorem set (h : Twins known mode other here there) {place : Nat} {junction twin : Junction Stage}
    (houtline : junction.outline = twin.outline)
    (hupstream : junction.upstream.Twin known mode other place twin.upstream) :
    Twins known mode other (here.set place junction) (there.set place twin) where
  outline := by rw [List.map_set, List.map_set, h.outline, houtline]
  upstream at_ first second hfirst hsecond := by
    by_cases hplace : place = at_
    · subst hplace
      obtain ⟨_, rfl⟩ := List.getElem?_eq_some_iff.mp hfirst
      obtain ⟨_, rfl⟩ := List.getElem?_eq_some_iff.mp hsecond
      rw [List.getElem_set_self, List.getElem_set_self]
      exact hupstream
    · rw [List.getElem?_set_ne hplace] at hfirst hsecond
      exact h.upstream at_ first second hfirst hsecond

theorem append (h : Twins known mode other here there) {junction twin : Junction Stage}
    (houtline : junction.outline = twin.outline)
    (hupstream : junction.upstream.Twin known mode other here.length twin.upstream) :
    Twins known mode other (here ++ [junction]) (there ++ [twin]) where
  outline := by simp [h.outline, houtline]
  upstream place first second hfirst hsecond := by
    have hlength := h.length_eq
    rw [List.getElem?_append] at hfirst hsecond
    by_cases hplace : place < here.length
    · rw [if_pos hplace] at hfirst
      rw [if_pos (hlength ▸ hplace)] at hsecond
      exact h.upstream place first second hfirst hsecond
    · rw [if_neg hplace] at hfirst
      rw [if_neg (hlength ▸ hplace), ← hlength] at hsecond
      obtain ⟨hlast, hsame⟩ := List.getElem?_eq_some_iff.mp hfirst
      have hzero : place - here.length = 0 := by simpa using hlast
      rw [hzero] at hfirst hsecond
      cases hfirst
      cases hsecond
      have heq : place = here.length := by omega
      exact heq ▸ hupstream

/-- Twins remain twins where each junction changes in a way that its outline decides. -/
theorem map (h : Twins known mode other here there) {change : Junction Stage → Junction Stage}
    (houtline : ∀ junction twin : Junction Stage, junction.outline = twin.outline →
      (change junction).outline = (change twin).outline)
    (hupstream : ∀ junction, (change junction).upstream = junction.upstream) :
    Twins known mode other (here.map change) (there.map change) where
  outline := by
    apply List.ext_getElem?
    intro place
    simp only [List.getElem?_map]
    cases hplace : here[place]? with
    | none => rw [h.getElem?_none hplace]
    | some junction =>
        obtain ⟨twin, htwin, hsame, -⟩ := h.getElem? hplace
        rw [htwin]
        exact congrArg some (houtline junction twin hsame)
  upstream place first second hfirst hsecond := by
    rw [List.getElem?_map, Option.map_eq_some_iff] at hfirst hsecond
    obtain ⟨junction, hjunction, rfl⟩ := hfirst
    obtain ⟨twin, htwin, rfl⟩ := hsecond
    rw [hupstream, hupstream]
    exact h.upstream place junction twin hjunction htwin

end Junction.Twins

namespace Scene.Twin

variable {bound : Nat} {first second : Scene}

theorem symm (h : first.Twin known mode other bound second) :
    second.Twin known other mode bound first :=
  ⟨h.junctions.length_eq ▸ h.within, h.stage.symm, h.junctions.symm, h.world.symm⟩

theorem left (h : first.Twin known mode other bound second) :
    first.Twin known mode mode bound first :=
  ⟨h.within, h.stage.left, h.junctions.left, .rfl⟩

end Scene.Twin

/-- How far the stage that is asked may refer: what a loop embeds refers to nothing. -/
def Hole.scope (bound : Nat) : Hole → Nat
  | .collect .. => 0
  | _ => bound

theorem Hole.scope_le (hole : Hole) (bound : Nat) : hole.scope bound ≤ bound := by
  cases hole <;> simp [scope]

inductive Hole.Twin (known : Pipe → Prop) (mode other : Mode) (bound : Nat) : Hole → Hole → Prop
  | tagged (id : ModuleId) (index : Nat) :
      Twin known mode other bound (.tagged id index) (.tagged id index)
  | mapped (transform : Transform) :
      Twin known mode other bound (.mapped transform) (.mapped transform)
  | tally (count : Nat) : Twin known mode other bound (.tally count) (.tally count)
  | input {task twin : Task} (htask : task.Twin known mode other twin) :
      Twin known mode other bound (.input task) (.input twin)
  | collect {task twin : Task} {source origin : Stage} (last : Bool) (rule : LoopRule)
      (item : Record) (found : List Record) (htask : task.Twin known mode other twin)
      (hsource : source.Twin known mode other bound origin) :
      Twin known mode other bound (.collect task source last rule item found)
        (.collect twin origin last rule item found)

inductive Reaction.Twin (known : Pipe → Prop) (mode other : Mode) (bound : Nat) :
    Reaction → Reaction → Prop
  | stop (poll : Poll) {first second : Stage} (h : first.Twin known mode other bound second) :
      Twin known mode other bound (.stop poll first) (.stop poll second)
  | go {first second : Stage} (h : first.Twin known mode other bound second) :
      Twin known mode other bound (.go first) (.go second)

/-- What is left of the whole stage. -/
def Reaction.stage : Reaction → Stage
  | .stop _ stage => stage
  | .go stage => stage

theorem Reaction.Twin.stage {bound : Nat} {first second : Reaction}
    (h : first.Twin known mode other bound second) :
    first.stage.Twin known mode other bound second.stage := by
  cases h with
  | stop _ h => exact h
  | go h => exact h

namespace Hole.Twin

variable {bound : Nat} {hole twin : Hole}

theorem scope_eq (h : hole.Twin known mode other bound twin) :
    hole.scope bound = twin.scope bound := by
  cases h <;> rfl

theorem fill (h : hole.Twin known mode other bound twin) {inner asked : Stage}
    (hinner : inner.Twin known mode other (hole.scope bound) asked) :
    (hole.fill inner).Twin known mode other bound (twin.fill asked) := by
  cases h with
  | tagged id index => exact .tagged id index hinner
  | mapped transform => exact .mapped transform hinner
  | tally count => exact .tally count false hinner
  | input htask => exact .batches [] false htask hinner
  | collect last rule item found htask hsource =>
      exact .collect rule item found last htask hsource hinner

/-- A twin of a stage with a hole has a hole at the same place. -/
theorem of_fill {inner second : Stage}
    (h : (hole.fill inner).Twin known mode other bound second) :
    ∃ twin asked, second = Hole.fill twin asked ∧ hole.Twin known mode other bound twin ∧
      inner.Twin known mode other (hole.scope bound) asked := by
  cases hole with
  | tagged id index =>
      cases h with
      | tagged _ _ hinner => exact ⟨_, _, rfl, .tagged id index, hinner⟩
  | mapped transform =>
      cases h with
      | mapped _ hinner => exact ⟨_, _, rfl, .mapped transform, hinner⟩
  | tally count =>
      cases h with
      | tally _ _ hinner => exact ⟨_, _, rfl, .tally count, hinner⟩
  | input task =>
      cases h with
      | batches _ _ htask hinner => exact ⟨.input _, _, rfl, .input htask, hinner⟩
  | collect task source last rule item found =>
      cases h with
      | collect _ _ _ _ htask hsource hinner =>
          exact ⟨.collect _ _ last rule item found, _, rfl,
            .collect last rule item found htask hsource, hinner⟩

theorem react (h : hole.Twin known mode other bound twin) (now : DateTime) (poll : Poll)
    {inner asked : Stage} (hinner : inner.Twin known mode other (hole.scope bound) asked) :
    (hole.react now poll inner).Twin known mode other bound (twin.react now poll asked) := by
  cases h with
  | tagged id index =>
      cases poll with
      | answer answer => exact .stop _ (.tagged id (index + 1) hinner)
      | pending => exact .stop _ (.tagged id index hinner)
      | ended => exact .stop _ (.tagged id index hinner)
  | mapped transform => exact .stop _ (.mapped transform hinner)
  | tally count =>
      cases poll with
      | pending => exact .stop _ (.tally count false hinner)
      | ended => exact .stop _ (.tally count true hinner)
      | answer answer =>
          cases answer with
          | error error => exact .stop _ (.tally count true hinner)
          | ok item =>
              simp only [Hole.react, reactTally]
              split
              · exact .stop _ (.tally count true hinner)
              · exact .go (.tally (count + 1) false hinner)
  | input htask =>
      cases poll with
      | pending => exact .stop _ (.batches [] false htask hinner)
      | ended => exact .stop _ (.batches [] true htask hinner)
      | answer answer =>
          cases answer with
          | error error => exact .stop _ (.batches [] false htask hinner)
          | ok record =>
              cases htask with
              | fetch conf =>
                  have hwaits {mode : Mode} {found : Bool} (h : (mode == .async && found) = true) :
                      mode = .async :=
                    eq_of_beq (Bool.and_eq_true_iff.mp h).1
                  exact .go (.load conf record _ (.fetch conf) hinner hwaits hwaits)
              | loop rule hembed =>
                  exact .go (.instantiate rule record _ (.loop rule hembed) hinner hembed)
  | collect last rule item found htask hsource =>
      cases poll with
      | pending => exact .stop _ (.collect rule item found last htask hsource hinner)
      | ended => exact .go (.batches _ last htask hsource)
      | answer answer =>
          cases answer with
          | error error => exact .go (.batches _ last htask hsource)
          | ok record => exact .go (.collect rule item _ last htask hsource hinner)

end Hole.Twin

end Pipework

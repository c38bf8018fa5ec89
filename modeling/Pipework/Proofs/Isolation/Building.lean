import Pipework.Proofs.Assembly.Congruence
import Pipework.Proofs.Isolation.Secluded

/-! # Building is hermetic

However a module is built, and so however a pipe is assembled, it takes nothing from the world but
what the user is asked.
-/

namespace Pipework

open Run (Hermetic)

theorem Run.Hermetic.congruence : Run.Congruence fun first _ => first.Hermetic :=
  ⟨.pure, .bind, .report⟩

theorem Factory.build_hermetic (setting : Setting) (mode : Mode) (depth : Nat)
    (factory : Factory) (args : Arguments Factory) :
    (factory.build setting mode depth args).Hermetic :=
  Run.Hermetic.congruence.factory .ask (fun id => .count id _) nofun setting depth factory
    args

theorem Embed.instantiate_hermetic (setting : Setting) (mode : Mode) (embed : Embed Factory)
    (item : Record) : (embed.instantiate setting mode item).Hermetic := by
  unfold Embed.instantiate
  refine .bind (Factory.build_hermetic ..) fun outcome => ?_
  cases outcome <;> exact .pure _

theorem Job.fetch_hermetic (setting : Setting) (conf : Conf) (item : Record) :
    (Job.fetch setting conf item).Hermetic := by
  unfold Job.fetch
  split
  · exact .pure _
  · exact .bind (.readFile ..) fun text => .pure _

/-- Starting a run takes nothing from the world but what the user is asked. -/
theorem PipeRun.ofContext_hermetic (setting : Setting) (mode : Mode) (limit : Option Nat)
    (context : RunContext) (pipe : Pipe) :
    (ofContext setting mode limit context pipe).Hermetic := by
  unfold ofContext
  split
  · exact .pure _
  · refine .bind (.report _) fun _ => .bind ?_ fun outcome => .pure _
    exact Run.Hermetic.congruence.ofPipe .ask (fun id => .count id _) nofun setting
      limit context pipe

end Pipework

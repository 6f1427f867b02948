import Overseer.Config
import Overseer.Lifecycle.Program
import Overseer.Lifecycle.Schedule
import Overseer.Worker.Ticker

/-!
# Contexts

What an application supplies so that a daemon can run it: a hook for each turn of its life and an
answer to each tick.
-/

namespace Overseer

/-- Hooks that are not supplied report nothing, and ticks follow the schedule. -/
structure Context (σ : Type) where
  validate : Config → Program σ := fun _ => .done .unset
  start : Program σ := .done .unset
  reconfigure : Program σ := .done .unset
  restart : Program σ := .done .unset
  user1 : Program σ := .done .unset
  user2 : Program σ := .done .unset
  shutdown : Program σ := .done .unset
  tick : TickRule σ := fun least app => (.value (Schedule.next least), app)

namespace Context

variable {σ : Type}

/-- The hook that a daemon binds to a slot. -/
def hook (c : Context σ) : Slot → Program σ
  | .start => c.start
  | .reload => c.reconfigure
  | .user1 => c.user1
  | .user2 => c.user2
  | .close => c.shutdown

end Context

end Overseer

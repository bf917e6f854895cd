/-!
# Health events

## Main definitions

* `HealthEvent` — what a check of a role found, and what came of a restart
-/

namespace ShardKeeper

/-- What a check of a role found, or what came of it. -/
inductive HealthEvent where
  /-- No process plays the role. -/
  | dead (role : String)
  /-- Several processes play the role; none is touched. -/
  | ambiguous (role : String) (count : Nat)
  | restarted (role : String)
  | restartFailed (role : String) (error : String)
deriving DecidableEq

end ShardKeeper

import ShardKeeper.Text.Blank
import ShardKeeper.Text.Substring

/-!
# Process roles

A role is played by every process whose command line contains the role's signature.

## Main definitions

* `Role` — a name, a command that starts it, and a signature
* `Role.owns` — whether a command line belongs to the role
* `Role.isUsable` — whether the role can be started
-/

namespace ShardKeeper

/-- One role among the processes of the machine. -/
structure Role where
  name : String
  startCommand : String
  signature : String
deriving DecidableEq, Inhabited

namespace Role

/-- Whether a command line belongs to the role. An empty signature belongs to none. -/
def owns (role : Role) (command : String) : Bool :=
  !role.signature.isEmpty && Text.contains command.toList role.signature.toList

/-- Whether neither the start command nor the signature is blank. -/
def isUsable (role : Role) : Bool :=
  !Text.isBlankText role.startCommand.toList && !Text.isBlankText role.signature.toList

end Role

end ShardKeeper

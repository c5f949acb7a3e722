import Pulse.SocketAddress

/-!
# Settings from the environment

Two settings may come from the environment of the process and then take precedence: which file the
configuration is in, and the address of the operators' interface.
-/

set_option autoImplicit false

namespace Pulse

/-- The variables of the environment, as far as they are set. -/
structure Environment where
  config : Option String := none
  address : Option String := none

namespace Environment

/-- The file of the configuration.  An empty name counts as unset. -/
def configFile? (environment : Environment) : Option String :=
  environment.config.filter fun path => !path.isEmpty

/-- The address of the interface.  What is no address counts as unset. -/
def bind? (environment : Environment) : Option SocketAddress :=
  environment.address.bind SocketAddress.parse?

end Environment

end Pulse

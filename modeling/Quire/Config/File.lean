import Quire.Config.Reader
import Quire.Storage.Disk

/-!
# Configuration files
-/

namespace Quire

inductive ConfigFailure where
  | unreadable (path : String) (fault : FileFault)
  | invalid (fault : ConfigFault)
  deriving DecidableEq, Repr

/-- What is wrong with the text of a configuration, as far as it is told. -/
def ConfigFault.message : ConfigFault → String
  | size refused => "Invalid configuration: " ++ refused.message
  | misfit => "Invalid configuration"

def ConfigFailure.message : ConfigFailure → String
  | unreadable path fault => "Failed to read configuration " ++ path ++ ": " ++ fault.message
  | invalid fault => fault.message

def Config.load {m : Type → Type} [Monad m] [Disk m] (path : String) :
    m (Except ConfigFailure Config) := do
  match ← Disk.readText path with
  | .error fault => pure (.error (.unreadable path fault))
  | .ok text => pure ((Config.read text).mapError .invalid)

end Quire

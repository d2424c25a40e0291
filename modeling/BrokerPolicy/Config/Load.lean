import BrokerPolicy.Config.File
import BrokerPolicy.Listing.Query
import BrokerPolicy.Text.Utf8

/-!
Loading the policies that are to be applied.

They come from a policy file and perhaps from a list that accompanies it. The file is read first and
its policies win. Only if one of them is for every virtual host the broker is asked which there are;
if it cannot tell, these policies are left out.

`loadPolicies` returns an error only for the file or the list, and then nothing has been asked.
-/
namespace BrokerPolicy

/-- What a file holds, or why it cannot be read. -/
abbrev FileContent := Except String (List UInt8)

/-- The text of a file. -/
def readText (path : String) : FileContent → Except PolicyError String
  | .error reason => .error (.unreadable path reason)
  | .ok bytes =>
    match Text.Utf8.decode? bytes with
    | some text => .ok text
    | none => .error (.unreadable path "stream did not contain valid UTF-8")

namespace Policy

variable {m : Type → Type} [Monad m]

/-- The policies of a file and of a list that accompanies it, before copies for virtual hosts. -/
def configured (path : String) (file : FileContent) (relation : Option String) :
    Except PolicyError (List Policy) := do
  let ps ← ofFile (← readText path file)
  match relation with
  | none => return ps
  | some text => return merge ps (← ofList text)

/-- The policies with copies for the virtual hosts of the broker, which is asked if need be. -/
def expandOn (host : Host m) (ps : List Policy) : Query m (List Policy) := do
  if hasWildcard ps then
    return expandWildcards (← Query.vhosts host) ps
  else
    return ps

/-- Loads the policies that are to be applied. -/
def loadPolicies (host : Host m) (path : String) (file : FileContent)
    (relation : Option String) : Query m (Except PolicyError (List Policy)) := do
  match configured path file relation with
  | .error e => return .error e
  | .ok ps =>
    let ps ← expandOn host ps
    host.log {
      level := .debug
      message := "loaded policies"
      fields := [("count", toString ps.length)] }
    return .ok ps

end Policy

end BrokerPolicy

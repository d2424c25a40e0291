import BrokerPolicy.Listing.Query

/-!
The questions that a session can put to a broker, in any order, and the replies to them. All
questions of a session are asked in the same format (`Question.askAll`).
-/
namespace BrokerPolicy

/-- A question to a broker. -/
inductive Question where
  | supportsJson
  | vhosts
  | tryVhosts
  | policies
  | tryPoliciesIn (vhost : String)
  deriving DecidableEq

/-- The reply to a question. -/
inductive Reply where
  | flag (b : Bool)
  | vhosts (names : List String)
  | triedVhosts (result : Except PolicyError (List String))
  | policies (rows : List Row)
  | triedPolicies (result : Except PolicyError (List Row))

namespace Question

variable {m : Type → Type} [Monad m]

/-- Puts a question to the broker. -/
def ask (host : Host m) : Question → Query m Reply
  | .supportsJson => Reply.flag <$> Query.supportsJson host
  | .vhosts => Reply.vhosts <$> Query.vhosts host
  | .tryVhosts => Reply.triedVhosts <$> Query.tryVhosts host
  | .policies => Reply.policies <$> Query.policies host
  | .tryPoliciesIn vhost => Reply.triedPolicies <$> Query.tryPoliciesIn host vhost

/-- Puts one question after the other. -/
def askAll (host : Host m) : List Question → Query m (List Reply)
  | [] => return []
  | q :: qs => do
    let reply ← q.ask host
    return reply :: (← askAll host qs)

end Question

end BrokerPolicy

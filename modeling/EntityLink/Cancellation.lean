namespace EntityLink

/-- Cancellation flags and the tokens that share them: each token points to a flag, and a clone
to the flag of the token it was cloned from. -/
structure CancellationTokens where
  flags : List Bool := [false]
  tokens : List Nat := [0]
  deriving DecidableEq, Repr

namespace CancellationTokens

/-- A token with a flag of its own. -/
def fresh (c : CancellationTokens) : CancellationTokens :=
  { flags := c.flags ++ [false], tokens := c.tokens ++ [c.flags.length] }

def clone (c : CancellationTokens) (i : Nat) : CancellationTokens :=
  { c with tokens := c.tokens ++ (c.tokens[i]?).toList }

/-- Cancels every stage that holds a token of the same flag. -/
def cancel (c : CancellationTokens) (i : Nat) : CancellationTokens :=
  match c.tokens[i]? with
  | some flag => { c with flags := c.flags.set flag true }
  | none => c

def isCancelled (c : CancellationTokens) (i : Nat) : Bool :=
  ((c.tokens[i]?).bind (c.flags[·]?)).getD false

/-- Whether each token is cancelled. -/
def states (c : CancellationTokens) : List Bool :=
  (List.range c.tokens.length).map c.isCancelled

end CancellationTokens

end EntityLink

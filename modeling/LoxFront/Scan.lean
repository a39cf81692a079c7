import LoxFront.Item

/-!
# Scanning a source

`scan` sorts the item stream of a source into tokens and diagnostics, each in the
order of the source. A fault never ends a scan.
-/

namespace LoxFront

/-- All that one scan found: the tokens, up to and with the mark of the end, and the
diagnostics. -/
structure Scanned where
  tokens : List Token
  diagnostics : List Diagnostic
deriving DecidableEq

def Scanned.ofItems (items : List Item) : Scanned :=
  ⟨items.filterMap Item.token?, items.filterMap Item.diagnostic?⟩

/-- **Scanning**: the tokens and the diagnostics of a source. -/
def scan (source : String) : Scanned := Scanned.ofItems (items source)

namespace Scanned

def hadError (s : Scanned) : Bool := !s.diagnostics.isEmpty

/-- The counts of a scan; they have no singular. -/
def summary (s : Scanned) : String :=
  toString s.tokens.length ++ " tokens, " ++ toString s.diagnostics.length ++ " errors"

/-- Token by token, up to the end of the shorter list. -/
def agreement (s t : Scanned) : List Bool := List.zipWith (· == ·) s.tokens t.tokens

end Scanned

theorem scan_tokens (source : String) :
    (scan source).tokens = (items source).filterMap Item.token? := rfl

theorem scan_diagnostics (source : String) :
    (scan source).diagnostics = (items source).filterMap Item.diagnostic? := rfl

end LoxFront

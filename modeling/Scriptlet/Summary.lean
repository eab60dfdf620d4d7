import Scriptlet.Statement

/-!
# Summaries of listings

A summary counts the statements of a listing by mnemonic, the blocks, and the changes of mode.  The
three markers at the head of a listing set the first modes and change none.
-/

namespace Scriptlet

namespace Statement

/-- Whether the statement sets a mode. -/
def isMarker : Statement → Bool
  | scope _ => true
  | type _ => true
  | operator _ => true
  | _ => false

end Statement

structure Summary where
  /-- How often each mnemonic occurs, sorted by mnemonic. -/
  counts : List (Text × Nat)
  total : Nat
  modeSwitches : Nat
  blocks : Nat
deriving DecidableEq, Repr

namespace Summary

/-- The number of statements at the head of a listing that set the first modes. -/
def headLength : Nat := 3

/-- The mnemonics of a listing, sorted, each once. -/
def mnemonics (listing : List Statement) : List Text :=
  ((listing.map Statement.mnemonic).mergeSort fun a b => (compare a b).isLE).eraseDups

def ofListing (listing : List Statement) : Summary where
  counts := (mnemonics listing).map fun name => (name, listing.countP (·.mnemonic = name))
  total := listing.length
  modeSwitches := (listing.drop headLength).countP Statement.isMarker
  blocks := listing.countP (· = .endBlock)

def render (s : Summary) : Text :=
  let lines := s.counts.map fun (name, n) => Text.concat ["* `", name, "`: ", .ofNat n, "\n"]
  let totals := Text.concat ["\n", .ofNat s.total, " statements, ", .ofNat s.modeSwitches,
    " mode switches, ", .ofNat s.blocks, " blocks\n"]
  "# Statement report\n\n" ++ Text.concat lines ++ totals

end Summary

end Scriptlet

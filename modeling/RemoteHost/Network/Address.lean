import RemoteHost.Text.Hex
import RemoteHost.Text.Pieces

/-!
# Network addresses

A machine has an address of 32 bits, written as one to four numbers, or one of 128 bits, written as
groups of hexadecimal digits in which two colons stand for a run of zeros. After a percent sign an
address of 128 bits may name the link that leads to it.
-/

namespace RemoteHost.Network

inductive Address where
  | v4 (value : Nat)
  /-- Eight groups of 16 bits each, and the number of a link or zero. -/
  | v6 (groups : List Nat) (link : Nat)
  deriving DecidableEq, Repr

/-- The number that a text spells in a base of at most sixteen. -/
def ofDigits? (base : Nat) (text : List Char) : Option Nat :=
  if text.isEmpty then none
  else text.foldlM (fun n c => do
    let d ← Text.hexValue? c
    if d < base then some (base * n + d) else none) 0

/-- The number that a text spells: hexadecimal after `0x`, octal after a zero, otherwise decimal. -/
def numeral? : List Char → Option Nat
  | '0' :: 'x' :: rest | '0' :: 'X' :: rest => ofDigits? 16 rest
  | '0' :: rest => ofDigits? 8 ('0' :: rest)
  | text => ofDigits? 10 text

/-- Joins numbers to `room` bytes that follow `value`. Each number is one byte, only the last fills
all that is left. -/
def joinNumbers (value : Nat) : Nat → List Nat → Option Nat
  | room + 1, [last] =>
    if last < Nat.pow 256 (room + 1) then some (value * Nat.pow 256 (room + 1) + last) else none
  | room + 1, byte :: rest =>
    if byte < 256 then joinNumbers (256 * value + byte) room rest else none
  | _, _ => none

/-- The address that one to four numbers with points between them spell. -/
def v4? (text : List Char) : Option Nat := do
  joinNumbers 0 4 (← (Text.pieces ['.'] text).mapM numeral?)

/-- The byte that a text spells in decimal digits, without a zero in front. -/
def byte? (text : List Char) : Option Nat := do
  let n ← ofDigits? 10 text
  if n < 256 ∧ (text.head? = some '0' → n = 0 ∧ text.length = 1) then some n else none

/-- The address that four bytes with points between them spell. -/
def quad? (text : List Char) : Option Nat := do
  let bytes ← (Text.pieces ['.'] text).mapM byte?
  if bytes.length = 4 then joinNumbers 0 4 bytes else none

/-- The group that one to four hexadecimal digits spell. -/
def group? (text : List Char) : Option Nat := if text.length ≤ 4 then ofDigits? 16 text else none

/-- The groups that parts spell. Where `mixed` allows it, four bytes at the end spell two groups. -/
def groups? (mixed : Bool) : List (List Char) → Option (List Nat)
  | [] => some []
  | [last] =>
    match group? last with
    | some group => some [group]
    | none =>
      if mixed then (quad? last).map fun n => [n / Nat.pow 2 16, n % Nat.pow 2 16] else none
  | part :: rest => do
    let group ← group? part
    some (group :: (← groups? mixed rest))

/-- The groups on one side of two colons. There may be none. -/
def side? (mixed : Bool) (text : List Char) : Option (List Nat) :=
  if text.isEmpty then some [] else groups? mixed (Text.pieces [':'] text)

/-- The eight groups that a text spells. Two colons stand for one group of zeros or more. -/
def v6? (text : List Char) : Option (List Nat) := do
  match Text.pieces [':', ':'] text with
  | [all] =>
    let groups ← side? true all
    if groups.length = 8 then some groups else none
  | [before, after] =>
    let before ← side? false before
    let after ← side? true after
    let missing := 8 - before.length - after.length
    if 0 < missing then some (before ++ List.replicate missing 0 ++ after) else none
  | _ => none

/-- The number of a link that a text spells: 32 bits in decimal digits. -/
def link? (text : List Char) : Option Nat := (ofDigits? 10 text).filter (· < Nat.pow 2 32)

namespace Address

def ofGroups? (text : List Char) : Option Address :=
  match Text.pieces ['%'] text with
  | [groups] => (v6? groups).map (.v6 · 0)
  | [groups, link] => do some (.v6 (← v6? groups) (← link? link))
  | _ => none

def ofText? (text : List Char) : Option Address := ((v4? text).map .v4).or (ofGroups? text)

def loopback : Address := .v4 0x7f000001

/-- Whether an address of 128 bits stands for one of 32 bits. -/
def isMapped (groups : List Nat) : Bool := groups.take 6 == [0, 0, 0, 0, 0, 0xffff]

/-- Whether an address of 128 bits stands for many machines. -/
def isMulticast (groups : List Nat) : Bool := groups.head?.any (0xff00 ≤ ·)

/-- Whether an address of 128 bits stands for one machine on one link only. -/
def isLinkLocal (groups : List Nat) : Bool := groups.head?.any (· / 64 == 0xfe80 / 64)

/-- Whether an address of 128 bits stands for many machines, all on one link. -/
def isLinkMulticast (groups : List Nat) : Bool :=
  isMulticast groups && groups.head?.any fun group => group % 16 == 1 || group % 16 == 2

/-- The address that a text spells with a link given by its name. Only an address that has its
meaning on one link is spelled so. -/
def onLink? (links : List (String × Nat)) (text : List Char) : Option Address :=
  match Text.pieces ['%'] text with
  | [groups, link] => do
    let groups ← v6? groups
    let link ← links.lookup (String.ofList link)
    if isLinkLocal groups || isLinkMulticast groups then some (.v6 groups link) else none
  | _ => none

end Address

end RemoteHost.Network

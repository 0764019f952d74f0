/-!
## Base 64

Bytes written as text, six bits to a character.  Reading is lenient: characters outside of the
alphabet are skipped, and what follows the padding of a group is not read.
-/

namespace FirewallPolicy.Text.Base64

/-- The six bits that a character of the alphabet stands for. -/
def bits? (c : Char) : Option Nat :=
  if 'A' ≤ c && c ≤ 'Z' then some (c.toNat - 65)
  else if 'a' ≤ c && c ≤ 'z' then some (c.toNat - 71)
  else if '0' ≤ c && c ≤ '9' then some (c.toNat + 4)
  else if c = '+' then some 62
  else if c = '/' then some 63
  else none

/-- The bytes of the text behind `place` characters of a group of four, of which the bits `left`
are not used yet; `pads` padding characters stand directly before the text.  A group that is
begun has to be completed. -/
def decodeFrom (place left pads : Nat) : List Char → Option (List UInt8)
  | [] => if place = 0 then some [] else none
  | c :: rest =>
    if c = '=' then
      if place < 2 then decodeFrom place left pads rest
      else if 3 ≤ place + pads then some []
      else decodeFrom place left (pads + 1) rest
    else
      match bits? c with
      | none => decodeFrom place left pads rest
      | some bits =>
        let joined := left * 64 + bits
        match place with
        | 0 => decodeFrom 1 bits 0 rest
        | 1 => (decodeFrom 2 (joined % 16) 0 rest).map (UInt8.ofNat (joined / 16) :: ·)
        | 2 => (decodeFrom 3 (joined % 4) 0 rest).map (UInt8.ofNat (joined / 4) :: ·)
        | _ => (decodeFrom 0 0 0 rest).map (UInt8.ofNat joined :: ·)

/-- The bytes that a text stands for, if its last group is complete. -/
def decode? (cs : List Char) : Option (List UInt8) :=
  decodeFrom 0 0 0 cs

end FirewallPolicy.Text.Base64

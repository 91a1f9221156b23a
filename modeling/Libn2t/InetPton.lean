/-
This file models the parser behind `boost::asio::ip::address::from_string`: the
standard `inet_pton` for both families, tried first for IPv6 and then for IPv4.

The parser is outside the repository and follows its documented text formats.
It works one character at a time: an IPv4 address is four decimal octets
without leading zeros, an IPv6 address is groups of one to four hexadecimal
digits with at most one `::` in them and possibly an IPv4 address at the end.
The result is the address in network order, four or sixteen bytes.
-/

import Libn2t.Address

namespace Net2Tr

/-! ### `inet_pton` of the family `AF_INET` -/

/-- The octets read so far, and the one being read if it has a digit. -/
def pton4Loop : List Nat → Option Nat → Text → Option (List Nat)
  | done, current, [] =>
    match current with
    | some value => if done.length = 3 then some (done ++ [value]) else none
    | none => none
  | done, current, c :: src =>
    if lwipIsdigit c then
      match current with
      | some value =>
        if value = 0 ∨ value * 10 + (c.toNat - '0'.toNat) > 255 then none
        else pton4Loop done (some (value * 10 + (c.toNat - '0'.toNat))) src
      | none => if done.length ≥ 4 then none else pton4Loop done (some (c.toNat - '0'.toNat)) src
    else if c = '.' then
      match current with
      | some value => if done.length ≥ 3 then none else pton4Loop (done ++ [value]) none src
      | none => none
    else none

def inetPton4 (src : Text) : Option Bytes :=
  (pton4Loop [] none src).map (·.map UInt8.ofNat)

/-! ### `inet_pton` of the family `AF_INET6` -/

/-- What the parser keeps: the bytes of the finished groups, where among them the `::` stood,
and the number of digits and the value of the group being read. -/
structure Pton6 where
  tmp : Bytes
  colonp : Option Nat
  xdigitsSeen : Nat
  val : Nat
deriving DecidableEq, Repr

/-- The end of the text: the last group is stored and the `::` is filled with zeros. -/
def Pton6.finish (state : Pton6) : Option Bytes :=
  let tmp := if state.xdigitsSeen > 0 then state.tmp ++ beBytes2 state.val else state.tmp
  if tmp.length > 16 then none
  else
    match state.colonp with
    | some position =>
      if tmp.length = 16 then none
      else some (tmp.take position ++ List.replicate (16 - tmp.length) 0 ++ tmp.drop position)
    | none => if tmp.length = 16 then some tmp else none

/-- The loop over the characters. `curtok` is the text from the start of the current group. -/
def pton6Loop : Pton6 → Text → Text → Option Bytes
  | state, _, [] => state.finish
  | state, curtok, c :: src =>
    if lwipIsxdigit c then
      if state.xdigitsSeen = 4 then none
      else
        pton6Loop { state with
          xdigitsSeen := state.xdigitsSeen + 1
          val := state.val * 16 + lwipXvalue c } curtok src
    else if c = ':' then
      if state.xdigitsSeen = 0 then
        if state.colonp.isSome then none
        else pton6Loop { state with colonp := some state.tmp.length } src src
      else if src = [] then none
      else if state.tmp.length + 2 > 16 then none
      else
        pton6Loop { state with
          tmp := state.tmp ++ beBytes2 state.val
          xdigitsSeen := 0
          val := 0 } src src
    else if c = '.' ∧ state.tmp.length + 4 ≤ 16 then
      match inetPton4 curtok with
      | some octets =>
        Pton6.finish { state with tmp := state.tmp ++ octets, xdigitsSeen := 0 }
      | none => none
    else none

/-- A leading colon must be the first of two. -/
def inetPton6 (src : Text) : Option Bytes :=
  let start : Pton6 := { tmp := [], colonp := none, xdigitsSeen := 0, val := 0 }
  match src with
  | ':' :: ':' :: rest => pton6Loop start (':' :: rest) (':' :: rest)
  | ':' :: _ => none
  | src => pton6Loop start src src

/-! ### `address::from_string` -/

/-- `boost::asio::ip::address`: the bytes of either family. -/
inductive Address where
  | v4 (bytes : Bytes)
  | v6 (bytes : Bytes)
deriving DecidableEq, Repr

/-- `address::from_string`; `none` is the exception it throws. -/
def fromString (str : Text) : Option Address :=
  match inetPton6 str with
  | some bytes => some (.v6 bytes)
  | none => (inetPton4 str).map .v4

end Net2Tr

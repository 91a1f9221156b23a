/-
This file models `Utils::addrport_to_socks5` and `Utils::socks5_to_addrport`:
the address field of a SOCKS5 message, which is a type byte, the raw address in
network order and a big-endian port.
-/

import Libn2t.InetPton
import Libn2t.Numeral

namespace Net2Tr

/-- The two bytes of a port, high byte first. -/
def portBytes (port : Port) : Bytes := [(port >>> 8).toUInt8, (port &&& 0xFF).toUInt8]

/-- The type byte and the raw bytes of an address. -/
def Address.socks5 : Address → Bytes
  | .v4 bytes => 0x01 :: bytes
  | .v6 bytes => 0x04 :: bytes

/-- `Utils::addrport_to_socks5`; `none` is the exception of `address::from_string`. -/
def addrportToSocks5 (addr : Text) (port : Port) : Option Bytes :=
  (fromString addr).map fun a => a.socks5 ++ portBytes port

/-- A port read from two bytes. -/
def portOf (high low : UInt8) : Port := high.toUInt16 <<< 8 ||| low.toUInt16

/-- A digit of a decimal numeral. -/
def decimalDigit (digit : Nat) : Char := Char.ofNat ('0'.toNat + digit)

/-- `std::to_string` of a `uint8_t`. -/
def toString8 (byte : UInt8) : Text := (Numeral.plain 10 3 byte.toNat).map decimalDigit

/-- A digit of a hexadecimal numeral in lower case. -/
def hexDigit (digit : Nat) : Char :=
  if digit < 10 then Char.ofNat ('0'.toNat + digit) else Char.ofNat ('a'.toNat + digit - 10)

/-- The conversion `%02x`. -/
def hex02 (byte : UInt8) : Text := (Numeral.fixed 16 2 byte.toNat).map hexDigit

/-- Eight groups of four hexadecimal digits with colons between them. -/
def hexGroups : Bytes → Text
  | [high, low] => hex02 high ++ hex02 low
  | high :: low :: rest => hex02 high ++ hex02 low ++ ':' :: hexGroups rest
  | _ => []

/-- `Utils::socks5_to_addrport`: the number of bytes read, the address and the port; `none` is
the result `-1`. -/
def socks5ToAddrport (socks5 : Bytes) : Option (Nat × Text × Port) :=
  match socks5 with
  | [] => none
  | atyp :: rest =>
    if atyp = 1 then
      match rest with
      | a :: b :: c :: d :: high :: low :: _ =>
        some (7, toString8 a ++ '.' :: toString8 b ++ '.' :: toString8 c ++ '.' :: toString8 d,
          portOf high low)
      | _ => none
    else if atyp = 4 then
      if socks5.length < 19 then none
      else
        some (19, hexGroups (rest.take 16), portOf (rest.getD 16 0) (rest.getD 17 0))
    else none

end Net2Tr

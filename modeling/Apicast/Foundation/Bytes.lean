/-!
# Strings of bytes

Strings as sequences of bytes, and the classes and cases of ASCII letters.
-/

namespace Foundation

abbrev Bytes := List UInt8

namespace Bytes

/-- The bytes of an ASCII text. -/
def ascii (text : String) : Bytes := text.toList.map fun char => UInt8.ofNat char.toNat

def isDigit (byte : UInt8) : Bool := 48 ≤ byte && byte ≤ 57

def isUpper (byte : UInt8) : Bool := 65 ≤ byte && byte ≤ 90

def isLower (byte : UInt8) : Bool := 97 ≤ byte && byte ≤ 122

def isAlnum (byte : UInt8) : Bool := isUpper byte || isLower byte || isDigit byte

def isSpace (byte : UInt8) : Bool := byte = 32 || 9 ≤ byte && byte ≤ 13

def lowerByte (byte : UInt8) : UInt8 := if isUpper byte then byte + 32 else byte

def upperByte (byte : UInt8) : UInt8 := if isLower byte then byte - 32 else byte

theorem forall_mem_of_all {bytes : Bytes} {holds : UInt8 → Bool} (all : bytes.all holds = true) :
    ∀ byte ∈ bytes, holds byte = true := List.all_eq_true.mp all

end Bytes

end Foundation

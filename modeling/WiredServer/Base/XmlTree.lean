import Mathlib

/-! XML element trees as the library reads them, with the integer attributes of its helpers.
Parsing itself belongs to the XML library. Text, comments and other nodes that are no
elements are skipped by every loop over children, and the tree leaves them out.
-/

namespace WiredServer

/-- An XML element with its local name, its attributes and its child elements. -/
inductive XmlNode where
  | element (name : String) (attributes : List (String × String)) (children : List XmlNode)

namespace XmlNode

/-- The local name of an element, without namespace prefix. -/
def name : XmlNode → String
  | .element name _ _ => name

/-- The child elements in document order. -/
def children : XmlNode → List XmlNode
  | .element _ _ children => children

/-- `wi_xml_node_attribute_with_name`. -/
def attributeWithName (node : XmlNode) (key : String) : Option String :=
  match node with
  | .element _ attributes _ =>
      (attributes.find? fun entry => entry.1 = key).map Prod.snd

end XmlNode

-----------------------------------------------------------------------------------------
-- Integers in text
-----------------------------------------------------------------------------------------

/-- The blanks that `strtoll` skips before a number. -/
def isSpace (char : Char) : Bool :=
  [' ', '\t', '\n', '\x0b', '\x0c', '\r'].contains char

/-- The value of a digit in bases up to 16. -/
def digitValue (char : Char) : Option Nat :=
  if '0' ≤ char ∧ char ≤ '9' then some (char.toNat - '0'.toNat)
  else if 'a' ≤ char ∧ char ≤ 'f' then some (char.toNat - 'a'.toNat + 10)
  else if 'A' ≤ char ∧ char ≤ 'F' then some (char.toNat - 'A'.toNat + 10)
  else none

/-- The value of a text that consists of digits of the base only. -/
def digitsValue (base : Nat) (digits : List Char) : Option Nat :=
  digits.foldlM
    (fun value char => do
      let digit ← digitValue char
      if digit < base then some (value * base + digit) else none)
    0

/-- The magnitude that `strtoll` reads in base 0, when nothing follows the number: the prefix
selects hexadecimal, octal or decimal digits.
-/
def magnitudeValue : List Char → Option Nat
  | [] => none
  | '0' :: 'x' :: first :: rest => digitsValue 16 (first :: rest)
  | '0' :: 'X' :: first :: rest => digitsValue 16 (first :: rest)
  | '0' :: rest => digitsValue 8 rest
  | digits => digitsValue 10 digits

/-- The number a text denotes for `strtoll`, when the text holds nothing else. -/
def signedValue (text : List Char) : Option Int :=
  match text.dropWhile isSpace with
  | '-' :: rest => (magnitudeValue rest).map fun value => -(value : Int)
  | '+' :: rest => (magnitudeValue rest).map fun value => (value : Int)
  | rest => (magnitudeValue rest).map fun value => (value : Int)

/-- `wi_string_integer` on a 64-bit machine: a text that is no number, or one out of range,
counts as zero.
-/
def stringInteger (string : String) : Int :=
  match signedValue string.toList with
  | some value => if -2 ^ 63 ≤ value ∧ value < 2 ^ 63 then value else 0
  | none => 0

/-- `wi_xml_node_integer_attribute_with_name`, stored in an unsigned 64-bit integer. -/
def XmlNode.integerAttributeWithName (node : XmlNode) (key : String) : UInt64 :=
  match node.attributeWithName key with
  | some string => .ofInt (stringInteger string)
  | none => 0

example : (XmlNode.element "type" [("id", "0x10")] []).integerAttributeWithName "id" = 16 := by
  decide

end WiredServer

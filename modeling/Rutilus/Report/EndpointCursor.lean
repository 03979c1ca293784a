import Rutilus.Domain.Command
import Rutilus.Lib.Sorted

/-!
# The cursor of the endpoint stream

What was last reported of every endpoint is kept as one text: the pairs of an endpoint
and its generation in the order of the endpoints, with a colon inside a pair and commas
between pairs. How an id is printed and parsed is the id library's.
-/

namespace Rutilus.Report.EndpointCursor

open Rutilus.Domain Rutilus.Lib

/-- The generations reported, in the order of the endpoints. -/
structure Watermark where
  entries : List (EndpointId × UInt64)
  rising : Rising (fun entry => entry.1.uuid) entries
  deriving DecidableEq

def Watermark.new : Watermark := ⟨[], List.Pairwise.nil⟩

def Watermark.insert (watermark : Watermark) (endpointId : EndpointId)
    (generation : UInt64) : Watermark :=
  ⟨upsert (fun entry => entry.1.uuid) (endpointId, generation) watermark.entries,
    rising_upsert watermark.rising⟩

inductive StoredCursorError where
  | invalidEndpointPair
  | unknownStream
  | invalidId
  deriving DecidableEq, Repr

/-! ## Parts of a text -/

/-- A text is cut at the first separator. -/
def splitOnce (separator : Char) : List Char → Option (List Char × List Char)
  | [] => none
  | c :: text =>
      if c = separator then some ([], text)
      else (splitOnce separator text).map fun parts => (c :: parts.1, parts.2)

/-- A number of 64 bits: digits, with a plus before them or none. -/
def parseU64 (text : List Char) : Option UInt64 :=
  let digits := match text with
    | '+' :: rest => rest
    | _ => text
  if digits = [] ∨ digits.all Char.isDigit = false then none
  else
    let value := Nat.ofDigitChars 10 digits 0
    if h : value < UInt64.size then some (UInt64.ofNatLT value h) else none

/-! ## The codec -/

section Codec

variable (idText : EndpointId → String) (parseId : String → Option EndpointId)

def parsePair (pair : List Char) : Except StoredCursorError (EndpointId × UInt64) := do
  let some (id, generation) := splitOnce ':' pair | throw .invalidEndpointPair
  let some endpointId := parseId (String.ofList id) | throw .invalidId
  let some generation := parseU64 generation | throw .invalidEndpointPair
  return (endpointId, generation)

def readPair (watermark : Watermark) (pair : List Char) :
    Except StoredCursorError Watermark := do
  let (endpointId, generation) ← parsePair parseId pair
  return watermark.insert endpointId generation

def parseEndpointCursor (value : String) : Except StoredCursorError Watermark :=
  if value = "" then .ok .new
  else (value.toList.splitOn ',').foldlM (readPair parseId) .new

def formatPair (entry : EndpointId × UInt64) : List Char :=
  (idText entry.1).toList ++ ':' :: Nat.toDigits 10 entry.2.toNat

def formatEndpointCursor (watermark : Watermark) : String :=
  String.ofList ([','].intercalate (watermark.entries.map (formatPair idText)))

end Codec

end Rutilus.Report.EndpointCursor

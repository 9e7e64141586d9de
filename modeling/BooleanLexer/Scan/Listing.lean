/-
# BooleanLexer.Scan.Listing -- everything that is found in a source

A listing holds all items of a source with its end, and what is wrong with it.  The
log has a record for each token in the order of the source, behind it a warning if
the token is an unexpected character, and at last a record that counts.
-/
import BooleanLexer.Item.Reading
import BooleanLexer.Utf8.Decode

namespace BooleanLexer.Scan

set_option autoImplicit false

/-- The items of a source and the error of the first unexpected character. -/
structure Listing where
  /-- All items, the end of the source included. -/
  items : List Item
  error? : Option Unexpected
deriving DecidableEq

/-- The listing of a source. -/
def Listing.ofText (source : Text) : Listing :=
  let items := Item.readAll 0 source
  ⟨items, items.findSome? Item.error?⟩

/-- The records that reading an item leaves, a warning for its error included. -/
def itemRecords (item : Item) : List Log.Record :=
  item.traceRecord?.toList ++ item.error?.toList.map fun error => ⟨.warn, error.message⟩

/-- The record at the end of a scan. -/
def countRecord (source : Text) (items : List Item) : Log.Record :=
  ⟨.debug, "scanned ".toList ++ Text.decimal items.length ++ " tokens from ".toList ++
    Text.decimal (Text.byteSize source) ++ " bytes".toList⟩

/-- The records of scanning a source. -/
def Listing.log (source : Text) (listing : Listing) : List Log.Record :=
  listing.items.flatMap itemRecords ++ [countRecord source listing.items]

/-- The records of decoding bytes: a warning if they are no text. -/
def decodingLog (bytes : List UInt8) : List Log.Record :=
  (Utf8.fault? bytes).toList.map fun fault =>
    ⟨.warn, "input is not valid UTF-8: ".toList ++ fault.message⟩

end BooleanLexer.Scan

-- SUMMARY: The JSON forms of amounts, dates and buckets.
import LoanArrears.Buckets
import LoanArrears.Calendar.Text
import LoanArrears.Json.Decode

/-!
# Amounts and dates in JSON

An amount is written as a string, so that its scale is kept. It is read from a
string or from a number; a number with a fraction stands for its shortest
decimal. Dates are strings.
-/

namespace LoanArrears

namespace Decimal

def toJson (a : Decimal) : Json :=
  .str a.toText

def decoder : Decoder Decimal
  | .str s => Decoder.ofOption (read? s)
  | .num (.integer v) => Decoder.ofOption (mk? v 0)
  | .num (.fraction negative x) =>
    Decoder.ofOption (readPlain? (if negative then '-' :: x.toChars else x.toChars))
  | _ => .error .malformed

end Decimal

namespace Date

def toJson (d : Date) : Json :=
  .str d.toText

def decoder : Decoder Date :=
  Decoder.text read?

end Date

namespace Buckets

def decoder (d : Decoder α) : Decoder (Buckets α) :=
  .record <| mk <$> .required "principal" d <*> .required "interest" d <*> .required "fee" d
    <*> .required "penalty" d

def toJson (f : α → Json) (b : Buckets α) : Json :=
  .obj [("principal", f b.principal), ("interest", f b.interest), ("fee", f b.fee),
    ("penalty", f b.penalty)]

end Buckets

namespace Amounts

def decoder : Decoder Amounts :=
  Buckets.decoder Decimal.decoder

def toJson (b : Amounts) : Json :=
  Buckets.toJson Decimal.toJson b

end Amounts

end LoanArrears

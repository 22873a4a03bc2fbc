import MiningPool.Wire.Shape

/-!
# Names of shapes

A shape is named by its words from the outside in: `seq0255_option_u16` is a short
sequence of optional numbers of two bytes.
-/

namespace MiningPool.Wire.Shape

/-- The words of the name of a shape. -/
def words : Shape → List String
  | u8 => ["u8"]
  | u16 => ["u16"]
  | u24 => ["u24"]
  | u32 => ["u32"]
  | u64 => ["u64"]
  | single => ["f32"]
  | bool => ["bool"]
  | protocol => ["protocol"]
  | blob .u256 => ["u256"]
  | blob .b032 => ["b032"]
  | blob .b0255 => ["b0255"]
  | blob .str0255 => ["str0255"]
  | blob .b064k => ["b064k"]
  | blob .b016m => ["b016m"]
  | option element => "option" :: element.words
  | seq .seq0255 element => "seq0255" :: element.words
  | seq .seq064k element => "seq064k" :: element.words

/-- The shapes whose names are single words. -/
def leaves : List Shape :=
  [u8, u16, u24, u32, u64, single, bool, protocol, blob .u256, blob .b032, blob .b0255,
   blob .str0255, blob .b064k, blob .b016m]

/-- The shape of a name given by its words. -/
def ofWords? : List String → Option Shape
  | [] => none
  | "option" :: rest => option <$> ofWords? rest
  | "seq0255" :: rest => seq .seq0255 <$> ofWords? rest
  | "seq064k" :: rest => seq .seq064k <$> ofWords? rest
  | [word] => leaves.find? fun shape => shape.words == [word]
  | _ => none

/-- The shape of a name. -/
def ofName? (name : String) : Option Shape :=
  ofWords? (name.splitOn "_")

end MiningPool.Wire.Shape

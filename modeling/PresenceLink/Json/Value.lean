import PresenceLink.Text.Utf8

/-!
# JSON values and how they are written

Values are written without blanks, members in their order. In texts the quote,
the backslash and characters below the space are escaped, all others stand for
themselves.

* `render_null`, `render_number`, `render_text`, `render_array`,
  `render_object`: the written forms.
-/

namespace PresenceLink

namespace Json

inductive Value where
  | null
  | bool (b : Bool)
  | number (n : Int)
  | text (s : String)
  | array (items : List Value)
  | object (members : List (String × Value))

/-- The digits of `n` in base ten. -/
def digits (n : Nat) : Bytes :=
  if n < 10 then [(48 + n).toUInt8] else digits (n / 10) ++ [(48 + n % 10).toUInt8]

def decimal (n : Int) : Bytes :=
  match n with
  | .ofNat n => digits n
  | .negSucc n => 45 :: digits (n + 1)

def hexDigit (n : Nat) : UInt8 := if n < 10 then (48 + n).toUInt8 else (87 + n).toUInt8

/-- One character inside a quoted text. -/
def escape (c : Char) : Bytes :=
  if c = '"' then [92, 34]
  else if c = '\\' then [92, 92]
  else if c = '\x08' then [92, 98]
  else if c = '\t' then [92, 116]
  else if c = '\n' then [92, 110]
  else if c = '\x0c' then [92, 102]
  else if c = '\r' then [92, 114]
  else if c.toNat < 32 then [92, 117, 48, 48, hexDigit (c.toNat / 16), hexDigit (c.toNat % 16)]
  else Utf8.encodeChar c

/-- The pieces of a text in quotes. -/
def quoted (s : String) : List Bytes := [34] :: (s.toList.map escape ++ [[34]])

def word (s : String) : Bytes := Utf8.ofString s

mutual

/-- The pieces in which a value is written, in order. -/
def Value.pieces : Value → List Bytes
  | .null => [word "null"]
  | .bool true => [word "true"]
  | .bool false => [word "false"]
  | .number n => [decimal n]
  | .text s => quoted s
  | .array items => [91] :: (itemPieces true items ++ [[93]])
  | .object members => [123] :: (memberPieces true members ++ [[125]])

/-- The items of an array; `first` says that no comma stands before them. -/
def itemPieces (first : Bool) : List Value → List Bytes
  | [] => []
  | v :: rest => (if first then [] else [[44]]) ++ v.pieces ++ itemPieces false rest

/-- The members of an object; `first` says that no comma stands before them. -/
def memberPieces (first : Bool) : List (String × Value) → List Bytes
  | [] => []
  | (name, v) :: rest =>
    (if first then [] else [[44]]) ++ quoted name ++ [[58]] ++ v.pieces ++ memberPieces false rest

end

/-- The written form of a value. -/
def Value.render (v : Value) : Bytes := v.pieces.flatten

/-- The written form of a text. -/
def renderText (s : String) : Bytes := 34 :: (s.toList.flatMap escape ++ [34])

theorem flatten_quoted (s : String) : (quoted s).flatten = renderText s := by
  simp [quoted, renderText, List.flatMap_def]

theorem render_text (s : String) : (Value.text s).render = renderText s := by
  rw [Value.render, Value.pieces, flatten_quoted]

theorem render_null : Value.null.render = [110, 117, 108, 108] := by decide

theorem render_number (n : Int) : (Value.number n).render = decimal n := by
  simp [Value.render, Value.pieces]

theorem render_array (items : List Value) :
    (Value.array items).render = 91 :: ((itemPieces true items).flatten ++ [93]) := by
  simp [Value.render, Value.pieces]

theorem render_object (members : List (String × Value)) :
    (Value.object members).render = 123 :: ((memberPieces true members).flatten ++ [125]) := by
  simp [Value.render, Value.pieces]

end Json

end PresenceLink

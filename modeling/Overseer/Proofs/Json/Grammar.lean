import Mathlib.Data.List.TakeWhile
import Overseer.Proofs.Json.Texts

/-!
# The grammar of JSON values

Which bytes are a value, told apart from how it is read. Of a text that nobody asks for no more is
asked than that its quotes and escapes are in order; a text that is asked for has to spell
characters. So there are two grammars of texts, of which the first one is the wider.
-/

namespace Overseer.Json

open Text (encode)

/-! ### White space -/

def IsBlanks (bs : Bytes) : Prop := ∀ b ∈ bs, isBlank b = true

section

variable {b : UInt8} {l bs : Bytes}

lemma skipBlank_cons (h : isBlank b = false) : skipBlank (b :: bs) = b :: bs :=
  List.dropWhile_cons_of_neg (by simp [h])

lemma skipBlank_append (hl : IsBlanks l) (bs : Bytes) : skipBlank (l ++ bs) = skipBlank bs :=
  List.dropWhile_append_of_pos hl

lemma exists_blanks (bs : Bytes) : ∃ l, bs = l ++ skipBlank bs ∧ IsBlanks l :=
  ⟨bs.takeWhile isBlank, List.takeWhile_append_dropWhile.symm, fun _ => List.mem_takeWhile_imp⟩

lemma isBlanks_nil : IsBlanks [] := by simp [IsBlanks]

lemma IsBlanks.append {l' : Bytes} (hl : IsBlanks l) (hl' : IsBlanks l') : IsBlanks (l ++ l') :=
  List.forall_mem_append.mpr ⟨hl, hl'⟩

end

/-! ### Texts -/

/-- Four digits of base 16 and their number. -/
inductive Hex : Bytes → Nat → Prop where
  | mk {a b c d w x y z} (ha : hexValue? a = some w) (hb : hexValue? b = some x)
      (hc : hexValue? c = some y) (hd : hexValue? d = some z) :
      Hex [a, b, c, d] (((w * 16 + x) * 16 + y) * 16 + z)

/-- What stands between the quotes of some text. -/
inductive Quotable : Bytes → Prop where
  | nil : Quotable []
  | plain {b bs} (hb : IsOrdinary b) (h : Quotable bs) : Quotable (b :: bs)
  | short {a b bs} (ha : shortEscape? a = some b) (h : Quotable bs) :
      Quotable (byte '\\' :: a :: bs)
  | number {ds n bs} (hds : Hex ds n) (h : Quotable bs) :
      Quotable (byte '\\' :: byte 'u' :: (ds ++ bs))

/-- What stands between the quotes stands for these bytes. A character beyond 16 bits is written by
the numbers of its two halves, and no half stands alone. -/
inductive Spelled : Bytes → Bytes → Prop where
  | nil : Spelled [] []
  | plain {b bs x} (hb : IsOrdinary b) (h : Spelled bs x) : Spelled (b :: bs) (b :: x)
  | short {a b bs x} (ha : shortEscape? a = some b) (h : Spelled bs x) :
      Spelled (byte '\\' :: a :: bs) (b :: x)
  | number {ds n bs x} (hds : Hex ds n) (hlow : isLowHalf n = false) (hhigh : isHighHalf n = false)
      (h : Spelled bs x) : Spelled (byte '\\' :: byte 'u' :: (ds ++ bs)) (charBytes n ++ x)
  | pair {ds n ds' n' bs x} (hds : Hex ds n) (hhigh : isHighHalf n = true) (hds' : Hex ds' n')
      (hlow : isLowHalf n' = true) (h : Spelled bs x) :
      Spelled (byte '\\' :: byte 'u' :: (ds ++ byte '\\' :: byte 'u' :: (ds' ++ bs)))
        (charBytes (0x10000 + (n - 0xd800) * 0x400 + (n' - 0xdc00)) ++ x)

/-- What stands between the quotes spells this text. -/
def Spells (raw : Bytes) (s : String) : Prop := Spelled raw (encode s)

/-! ### Numbers -/

def IsDigits (ds : Bytes) : Prop := ds ≠ [] ∧ ∀ d ∈ ds, isDigit d = true

/-- The digits before the point. Only the number zero begins with a zero. -/
def IsWhole (ds : Bytes) : Prop := IsDigits ds ∧ (ds.head? = some (byte '0') → ds.length = 1)

inductive Fraction : Bytes → Prop where
  | none : Fraction []
  | some {ds} (h : IsDigits ds) : Fraction (byte '.' :: ds)

inductive Exponent : Bytes → Prop where
  | none : Exponent []
  | some {e sign ds} (he : e = byte 'e' ∨ e = byte 'E')
      (hsign : sign = [] ∨ sign = [byte '+'] ∨ sign = [byte '-']) (h : IsDigits ds) :
      Exponent (e :: (sign ++ ds))

/-- A number without a minus sign. -/
inductive Unsigned : Bytes → Prop where
  | mk {w f e} (hw : IsWhole w) (hf : Fraction f) (he : Exponent e) : Unsigned (w ++ (f ++ e))

/-! ### Values -/

/-- The brackets of an object or of a list. -/
def opening (isObject : Bool) : UInt8 := if isObject then byte '\x7b' else byte '['

def closing (isObject : Bool) : UInt8 := if isObject then byte '\x7d' else byte ']'

/-- What stands before a value in a container: in an object a name and a colon. -/
inductive Lead : Bool → Bytes → Prop where
  | item {n} (hn : IsBlanks n) : Lead false n
  | name {l raw c n} (hl : IsBlanks l) (hraw : Quotable raw) (hc : IsBlanks c) (hn : IsBlanks n) :
      Lead true (l ++ byte '"' :: (raw ++ byte '"' :: (c ++ byte ':' :: n)))

/-- A value, or what is left of a container once it was opened, or once a value in it has ended. -/
inductive Part where
  | value
  | within (isObject : Bool)
  | behind (isObject : Bool)

/-- The bytes are such a part of a JSON text. -/
inductive Derives : Part → Bytes → Prop where
  | null : Derives .value (ascii "null")
  | bool (b : Bool) : Derives .value (ascii (toString b))
  | number {bs} (h : Unsigned bs) : Derives .value bs
  | negative {bs} (h : Unsigned bs) : Derives .value (byte '-' :: bs)
  | text {raw} (h : Quotable raw) : Derives .value (byte '"' :: (raw ++ [byte '"']))
  | container {k bs} (h : Derives (.within k) bs) : Derives .value (opening k :: bs)
  | empty {k b} (hb : IsBlanks b) : Derives (.within k) (b ++ [closing k])
  | first {k l v bs} (hl : Lead k l) (hv : Derives .value v) (h : Derives (.behind k) bs) :
      Derives (.within k) (l ++ (v ++ bs))
  | last {k b} (hb : IsBlanks b) : Derives (.behind k) (b ++ [closing k])
  | next {k b l v bs} (hb : IsBlanks b) (hl : Lead k l) (hv : Derives .value v)
      (h : Derives (.behind k) bs) : Derives (.behind k) (b ++ byte ',' :: (l ++ (v ++ bs)))

/-- The bytes are a JSON value. -/
abbrev IsValue (bs : Bytes) : Prop := Derives .value bs

end Overseer.Json

import ComponentTags.Calendar
import ComponentTags.Text.Quoted

/-!
# Keys of objects

Objects have texts as keys. Settings files may also use any other scalar as a key, and messages show
such a key for what it is.
-/

namespace ComponentTags

/-- A key. A double is kept as its bits. -/
inductive Key where
  | text (s : String)
  | null
  | bool (b : Bool)
  | int (n : Int)
  | float (bits : UInt64)
  | moment (m : Moment)
  deriving DecidableEq, Inhabited, Repr

instance : Coe String Key := ⟨.text⟩

namespace Key

/-- The form in which a message shows a key: a text in quotes. -/
def display : Key → String
  | text s => Text.quoted s
  | null => "None"
  | bool true => "True"
  | bool false => "False"
  | int n => Decimal.intText n
  | float bits => Decimal.floatText (Float.ofBits bits)
  | moment m => m.display

/-- The form in which a key stands inside running text: a text stands for itself. -/
def plain : Key → String
  | text s => s
  | moment m => m.text
  | key => key.display

/-- A number as a multiple of a power of two. Truth values count as one and zero. -/
def number? : Key → Option (Int × Int)
  | bool b => some (b.toNat, 0)
  | int n => some (n, 0)
  | float bits =>
    let magnitude := bits &&& 0x7FFFFFFFFFFFFFFF
    if 0x7FF0000000000000 ≤ magnitude then none
    else
      let x := Decimal.Binary.ofBits magnitude
      some (if bits = magnitude then x.m else -x.m, x.q)
  | text _ | null | moment _ => none

/-- Whether two multiples of powers of two are the same number. -/
def sameNumber (a b : Int × Int) : Bool :=
  a.1 * (Nat.pow 2 (a.2 - b.2).toNat : Nat) = b.1 * (Nat.pow 2 (b.2 - a.2).toNat : Nat)

/-- Whether two keys name the same field of an object: numbers do if they are equal, whatever their kind,
and so do moments. -/
def same (a b : Key) : Bool :=
  match a, b with
  | moment m, moment n => m.same n
  | _, _ =>
    a = b ||
      match a.number?, b.number? with
      | some x, some y => sameNumber x y
      | _, _ => false

end Key

end ComponentTags

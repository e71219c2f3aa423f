/-
`JEdit`, the line editor of the client's forms.

A key is moved, deleted or inserted at a cursor.  What a form admits is decided by its validator,
which is shown the text and a new character but not where the character goes, and is not asked
when a character is deleted.  An iterator that does not point into the text is a fault.
-/
import Muduo.Lib.Numeral

namespace Windows

open Lib

/-! ### Keys -/

def KEY_LEFT : Int := 224 * 256 + 75
def KEY_RIGHT : Int := 224 * 256 + 77
def KEY_DEL : Int := 224 * 256 + 83
def KEY_BACK : Int := 8

/-- `KEY_ENTER`, `KEY_DOWN`, `KEY_TAB` and `KEY_UP`, which are left to the form. -/
def formKeys : List Int := [13, 224 * 256 + 80, 9, 224 * 256 + 72]

/-- `isprint` in the C locale. -/
def isprint (key : Int) : Bool := decide (32 ≤ key ∧ key ≤ 126)

/-! ### The validator of amounts -/

/-- `ValidateMoney`: whether a character may be added to a text. -/
def validateMoney (str : Bytes) (ch : UInt8) : Bool :=
  if 11 ≤ str.length ∨ (isDigit ch = false ∧ ch ≠ 46) then false
  else if 46 ∈ str then
    let dotPos := str.idxOf 46
    if ch = 46 then false
    else if dotPos + 2 ≤ str.length - 1 then false
    else true
  else if ch ≠ 46 ∧ 8 ≤ str.length then false
  else true

/-! ### The editor -/

/-- An iterator that is no place of the text. -/
inductive EditFault where
  | badIterator
deriving DecidableEq

structure JEdit where
  text : Bytes
  currIndex : Int
  width : Int
  validator : Bytes → UInt8 → Bool

namespace JEdit

/-- An editor that starts empty. -/
def empty (width : Int) (validator : Bytes → UInt8 → Bool) : JEdit := ⟨[], 0, width, validator⟩

/-- `text_.erase(text_.begin() + i)` -/
def erase (e : JEdit) (i : Int) : Except EditFault JEdit :=
  if 0 ≤ i ∧ i < e.text.length then
    .ok { e with text := e.text.take i.toNat ++ e.text.drop (i.toNat + 1) }
  else .error .badIterator

/-- `text_.insert(text_.begin() + i, 1, ch)` -/
def insert (e : JEdit) (i : Int) (ch : UInt8) : Except EditFault JEdit :=
  if 0 ≤ i ∧ i ≤ e.text.length then
    .ok { e with text := e.text.take i.toNat ++ ch :: e.text.drop i.toNat }
  else .error .badIterator

/-- A key that is taken for a character of the text. -/
def Accepts (e : JEdit) (key : Int) : Prop :=
  0 < key ∧ key < 256 ∧ isprint key = true ∧ (e.text.length : Int) < e.width - 1 ∧
    e.validator e.text (UInt8.ofNat key.toNat) = true

instance (e : JEdit) (key : Int) : Decidable (e.Accepts key) := inferInstanceAs (Decidable (_ ∧ _))

/-- `OnKeyEvent`, and whether the event is done with; if not, it is passed on to the form. -/
def onKeyEvent (key : Int) (e : JEdit) : Except EditFault (JEdit × Bool) :=
  if key = KEY_RIGHT then
    if e.currIndex < e.text.length then .ok ({ e with currIndex := e.currIndex + 1 }, true)
    else .ok (e, false)
  else if key = KEY_LEFT then
    if 0 < e.currIndex then .ok ({ e with currIndex := e.currIndex - 1 }, true)
    else .ok (e, false)
  else if key = KEY_DEL then do
    let e ← e.erase e.currIndex
    return (e, true)
  else if key = KEY_BACK then
    if 0 < e.currIndex then do
      let e ← e.erase (e.currIndex - 1)
      return ({ e with currIndex := e.currIndex - 1 }, true)
    else .ok (e, true)
  else if key ∈ formKeys then .ok (e, false)
  else if e.Accepts key then do
    let e ← e.insert e.currIndex (UInt8.ofNat key.toNat)
    return ({ e with currIndex := e.currIndex + 1 }, true)
  else .ok (e, false)

/-- What a key does to the editor. -/
def step (key : Int) (e : JEdit) : Except EditFault JEdit := (onKeyEvent key e).map Prod.fst

end JEdit

end Windows

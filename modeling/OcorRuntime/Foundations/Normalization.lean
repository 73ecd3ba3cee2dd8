import Mathlib.Data.List.DropRight
import OcorRuntime.Foundations.Text

/-! Unicode normalization over any character database: compatibility decomposition,
canonical order, canonical composition (`NFKC`), and full case folding. Neither of the two
keeps what the other establishes: folding may put a character before a combining mark
that composes with it. Text of characters both leave alone is kept by both. -/
namespace OcorRuntime
set_option autoImplicit false
set_option maxHeartbeats 250000

/-- `str.strip`. -/
def strip (s : PyStr) : PyStr := (s.dropWhile isSpace).rdropWhile isSpace

/-- The properties of a character that normalization reads. -/
structure UnicodeData where
  /-- The full compatibility decomposition. -/
  decomposition : CodePoint → List CodePoint
  combiningClass : CodePoint → ℕ
  /-- The primary composite of a starter and the character after it. -/
  composition : CodePoint → CodePoint → Option CodePoint
  /-- The full case folding. -/
  caseFolding : CodePoint → List CodePoint

namespace UnicodeData
variable (u : UnicodeData)

/-- A mark moves back over the marks of higher class that stand before it; the text is reversed. -/
def order (text : List CodePoint) (c : CodePoint) : List CodePoint :=
  match text with
  | [] => [c]
  | d :: text =>
    if 0 < u.combiningClass c ∧ u.combiningClass c < u.combiningClass d then d :: order text c
    else c :: d :: text

/-- `NFKD`. -/
def nfkd (s : PyStr) : PyStr := ((s.flatMap u.decomposition).foldl u.order []).reverse

/-- A composition under way: the last starter with the marks kept after it, in reverse. -/
structure Composing where
  done : List CodePoint
  starter : Option CodePoint
  marks : List CodePoint

namespace Composing

def flush (k : Composing) : List CodePoint := k.done ++ k.starter.toList ++ k.marks.reverse

/-- No character between the starter and this one blocks them. -/
def adjacent (k : Composing) (c : CodePoint) : Bool :=
  match k.marks with
  | [] => true
  | d :: _ => u.combiningClass d < u.combiningClass c

def next (k : Composing) (c : CodePoint) : Composing :=
  match k.starter.bind fun s => if k.adjacent u c then u.composition s c else none with
  | some composite => { k with starter := some composite }
  | none =>
    if u.combiningClass c = 0 then ⟨k.flush, some c, []⟩
    else { k with marks := c :: k.marks }

end Composing

def compose (s : PyStr) : PyStr := (s.foldl (Composing.next u) ⟨[], none, []⟩).flush

def nfkc (s : PyStr) : PyStr := u.compose (u.nfkd s)

/-- `str.casefold`. -/
def casefold (s : PyStr) : PyStr := s.flatMap u.caseFolding

/-! ## Text that both leave alone -/

/-- A starter that neither decomposes nor folds. -/
def Plain (c : CodePoint) : Prop :=
  u.decomposition c = [c] ∧ u.combiningClass c = 0 ∧ u.caseFolding c = [c]

/-- Plain characters, none of which composes with the next. -/
structure Settled (s : PyStr) : Prop where
  plain : ∀ c ∈ s, u.Plain c
  apart : s.IsChain fun c d => u.composition c d = none

variable {u}

end UnicodeData
end OcorRuntime

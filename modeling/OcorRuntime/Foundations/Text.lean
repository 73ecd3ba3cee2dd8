import Mathlib.Data.Fin.Basic
import Mathlib.Data.List.Basic
import Mathlib.Data.List.Lex

/-! Python text: strings are lists of code points, lone surrogates included, and
byte strings are lists of octets. The two encodings used at the canonical
boundary are UTF-8 (decoded with the `surrogatepass` handler, as `json.loads`
does) and UTF-16 in big-endian order (a sort key). -/
namespace OcorRuntime
set_option autoImplicit false
set_option maxHeartbeats 250000
set_option maxRecDepth 120000

abbrev CodePoint := Fin 0x110000
abbrev PyStr := List CodePoint
abbrev Byte := Fin 256
abbrev Bytes := List Byte

instance : LawfulBEq CodePoint := inferInstance
instance : LawfulBEq PyStr := inferInstance

def codePoint (n : ℕ) : CodePoint := Fin.ofNat 0x110000 n

def byte (n : ℕ) : Byte := Fin.ofNat 256 n

def py (s : String) : PyStr := s.toList.map fun c => codePoint c.toNat

@[simp] theorem codePoint_val (n : ℕ) (h : n < 0x110000) : (codePoint n).val = n := Nat.mod_eq_of_lt h

@[simp] theorem byte_val (n : ℕ) (h : n < 256) : (byte n).val = n := Nat.mod_eq_of_lt h

theorem codePoint_self (c : CodePoint) : codePoint c.val = c := Fin.ext (Nat.mod_eq_of_lt c.isLt)

def IsSurrogate (c : CodePoint) : Prop := 0xD800 ≤ c.val ∧ c.val ≤ 0xDFFF

instance (c : CodePoint) : Decidable (IsSurrogate c) := inferInstanceAs (Decidable (_ ∧ _))

/-- No lone surrogate: the strings I-JSON admits. -/
def Scalar (s : PyStr) : Prop := ∀ c ∈ s, ¬ IsSurrogate c

instance (s : PyStr) : Decidable (Scalar s) := List.decidableBAll (fun c => ¬ IsSurrogate c) s

/-- `str.isspace` for one character. -/
def isSpace (c : CodePoint) : Bool :=
  (0x09 ≤ c.val && c.val ≤ 0x0D) || (0x1C ≤ c.val && c.val ≤ 0x20) || c.val == 0x85 || c.val == 0xA0 ||
    c.val == 0x1680 || (0x2000 ≤ c.val && c.val ≤ 0x200A) || c.val == 0x2028 || c.val == 0x2029 || c.val == 0x202F ||
    c.val == 0x205F || c.val == 0x3000

theorem append_cons_inj_right {α : Type} {x : α} {as bs cs ds : List α} (hb : x ∉ bs) (hd : x ∉ ds)
    (h : as ++ x :: bs = cs ++ x :: ds) : as = cs ∧ bs = ds := by
  rcases List.append_eq_append_iff.mp h with ⟨mid, rfl, hmid⟩ | ⟨mid, rfl, hmid⟩
  · cases mid with
    | nil => simpa using hmid
    | cons y mid =>
      rw [List.cons_append, List.cons.injEq] at hmid
      exact absurd (hmid.2 ▸ List.mem_append_right mid List.mem_cons_self) hb
  · cases mid with
    | nil => simpa [eq_comm] using hmid
    | cons y mid =>
      rw [List.cons_append, List.cons.injEq] at hmid
      exact absurd (hmid.2 ▸ List.mem_append_right mid List.mem_cons_self) hd

/-! ## UTF-8 -/

def utf8Char (c : CodePoint) : Bytes :=
  let n := c.val
  if n < 0x80 then [byte n]
  else if n < 0x800 then [byte (0xC0 + n / 64), byte (0x80 + n % 64)]
  else if n < 0x10000 then [byte (0xE0 + n / 4096), byte (0x80 + n / 64 % 64), byte (0x80 + n % 64)]
  else [byte (0xF0 + n / 262144), byte (0x80 + n / 4096 % 64), byte (0x80 + n / 64 % 64), byte (0x80 + n % 64)]

def utf8Encode (s : PyStr) : Bytes := s.flatMap utf8Char

def IsTail (b : Byte) : Prop := 0x80 ≤ b.val ∧ b.val < 0xC0

instance (b : Byte) : Decidable (IsTail b) := inferInstanceAs (Decidable (_ ∧ _))

/-- Shortest-form UTF-8. Three-octet surrogates decode to themselves. -/
def utf8Decode : Bytes → Option PyStr
  | [] => some []
  | a :: rest =>
    if a.val < 0x80 then (utf8Decode rest).map (codePoint a.val :: ·)
    else match rest with
    | [] => none
    | b :: rest =>
      if 0xC2 ≤ a.val ∧ a.val < 0xE0 ∧ IsTail b then
        (utf8Decode rest).map (codePoint ((a.val - 0xC0) * 64 + (b.val - 0x80)) :: ·)
      else match rest with
      | [] => none
      | c :: rest =>
        let three := (a.val - 0xE0) * 4096 + (b.val - 0x80) * 64 + (c.val - 0x80)
        if 0xE0 ≤ a.val ∧ a.val < 0xF0 ∧ IsTail b ∧ IsTail c ∧ 0x800 ≤ three then
          (utf8Decode rest).map (codePoint three :: ·)
        else match rest with
        | [] => none
        | d :: rest =>
          let four := (a.val - 0xF0) * 262144 + (b.val - 0x80) * 4096 + (c.val - 0x80) * 64 + (d.val - 0x80)
          if 0xF0 ≤ a.val ∧ IsTail b ∧ IsTail c ∧ IsTail d ∧ 0x10000 ≤ four ∧ four < 0x110000 then
            (utf8Decode rest).map (codePoint four :: ·)
          else none

theorem utf8Decode_char (c : CodePoint) (rest : Bytes) :
    utf8Decode (utf8Char c ++ rest) = (utf8Decode rest).map (c :: ·) := by
  have hc := c.isLt
  unfold utf8Char
  dsimp only
  split_ifs with h1 h2 h3
  · rw [List.singleton_append, utf8Decode.eq_def]
    dsimp only
    rw [byte_val _ (by omega), if_pos h1, codePoint_self]
  · have ha : (byte (0xC0 + c.val / 64)).val = 0xC0 + c.val / 64 := byte_val _ (by omega)
    have hb : (byte (0x80 + c.val % 64)).val = 0x80 + c.val % 64 := byte_val _ (by omega)
    simp only [List.cons_append, List.nil_append]
    rw [utf8Decode.eq_def]
    dsimp only
    rw [ha, if_neg (by omega), if_pos ⟨by omega, by omega, by unfold IsTail; omega⟩, hb,
      show (0xC0 + c.val / 64 - 0xC0) * 64 + (0x80 + c.val % 64 - 0x80) = c.val by omega, codePoint_self]
  · have ha : (byte (0xE0 + c.val / 4096)).val = 0xE0 + c.val / 4096 := byte_val _ (by omega)
    have hb : (byte (0x80 + c.val / 64 % 64)).val = 0x80 + c.val / 64 % 64 := byte_val _ (by omega)
    have hd : (byte (0x80 + c.val % 64)).val = 0x80 + c.val % 64 := byte_val _ (by omega)
    simp only [List.cons_append, List.nil_append]
    rw [utf8Decode.eq_def]
    dsimp only
    rw [ha, if_neg (by omega), if_neg (by omega), hb, hd,
      show (0xE0 + c.val / 4096 - 0xE0) * 4096 + (0x80 + c.val / 64 % 64 - 0x80) * 64 +
        (0x80 + c.val % 64 - 0x80) = c.val by omega,
      if_pos ⟨by omega, by omega, by unfold IsTail; omega, by unfold IsTail; omega, by omega⟩, codePoint_self]
  · have ha : (byte (0xF0 + c.val / 262144)).val = 0xF0 + c.val / 262144 := byte_val _ (by omega)
    have hb : (byte (0x80 + c.val / 4096 % 64)).val = 0x80 + c.val / 4096 % 64 := byte_val _ (by omega)
    have hd : (byte (0x80 + c.val / 64 % 64)).val = 0x80 + c.val / 64 % 64 := byte_val _ (by omega)
    have he : (byte (0x80 + c.val % 64)).val = 0x80 + c.val % 64 := byte_val _ (by omega)
    simp only [List.cons_append, List.nil_append]
    rw [utf8Decode.eq_def]
    dsimp only
    rw [ha, if_neg (by omega), if_neg (by omega), if_neg (by omega), hb, hd, he,
      show (0xF0 + c.val / 262144 - 0xF0) * 262144 + (0x80 + c.val / 4096 % 64 - 0x80) * 4096 +
        (0x80 + c.val / 64 % 64 - 0x80) * 64 + (0x80 + c.val % 64 - 0x80) = c.val by omega,
      if_pos ⟨by omega, by unfold IsTail; omega, by unfold IsTail; omega, by unfold IsTail; omega,
        by omega, by omega⟩, codePoint_self]

theorem utf8Decode_encode (s : PyStr) : utf8Decode (utf8Encode s) = some s := by
  induction s with
  | nil => rfl
  | cons c s ih =>
    have h := utf8Decode_char c (utf8Encode s)
    rw [ih] at h
    simpa [utf8Encode] using h

/-! ## UTF-16, big-endian -/

def utf16Units (c : CodePoint) : List ℕ :=
  if c.val < 0x10000 then [c.val]
  else [0xD800 + (c.val - 0x10000) / 0x400, 0xDC00 + (c.val - 0x10000) % 0x400]

def utf16BeEncode (s : PyStr) : Bytes :=
  (s.flatMap utf16Units).flatMap fun u => [byte (u / 256), byte (u % 256)]

theorem utf16Units_lt (s : PyStr) : ∀ u ∈ s.flatMap utf16Units, u < 0x10000 := by
  intro u hu
  obtain ⟨c, -, hc⟩ := List.mem_flatMap.mp hu
  have hlt := c.isLt
  unfold utf16Units at hc
  split_ifs at hc with h
  · simp only [List.mem_singleton] at hc
    omega
  · simp only [List.mem_cons, List.not_mem_nil, or_false] at hc
    omega

theorem octetPairs_injective : ∀ {l m : List ℕ}, (∀ u ∈ l, u < 0x10000) → (∀ u ∈ m, u < 0x10000) →
    (l.flatMap fun u => [byte (u / 256), byte (u % 256)]) =
      (m.flatMap fun u => [byte (u / 256), byte (u % 256)]) → l = m
  | [], [], _, _, _ => rfl
  | [], _ :: _, _, _, h => by simp at h
  | _ :: _, [], _, _, h => by simp at h
  | u :: l, v :: m, hl, hm, h => by
      simp only [List.flatMap_cons, List.cons_append, List.nil_append, List.cons.injEq] at h
      obtain ⟨hhi, hlo, htail⟩ := h
      have hu := hl u (List.mem_cons_self ..)
      have hv := hm v (List.mem_cons_self ..)
      have hhi' := congrArg Fin.val hhi
      have hlo' := congrArg Fin.val hlo
      rw [byte_val _ (by omega), byte_val _ (by omega)] at hhi' hlo'
      have huv : u = v := by omega
      rw [huv, octetPairs_injective (fun w hw => hl w (List.mem_cons_of_mem u hw))
        (fun w hw => hm w (List.mem_cons_of_mem v hw)) htail]

theorem utf16Units_injective : ∀ {s t : PyStr}, Scalar s → Scalar t →
    s.flatMap utf16Units = t.flatMap utf16Units → s = t
  | [], [], _, _, _ => rfl
  | [], d :: t, _, _, h => by
      simp only [List.flatMap_nil, List.flatMap_cons, utf16Units] at h
      split_ifs at h <;> simp at h
  | c :: s, [], _, _, h => by
      simp only [List.flatMap_nil, List.flatMap_cons, utf16Units] at h
      split_ifs at h <;> simp at h
  | c :: s, d :: t, hs, ht, h => by
      have hc := hs c (List.mem_cons_self ..)
      have hd := ht d (List.mem_cons_self ..)
      have hcl := c.isLt
      have hdl := d.isLt
      unfold IsSurrogate at hc hd
      have hrest : c = d ∧ s.flatMap utf16Units = t.flatMap utf16Units := by
        simp only [List.flatMap_cons, utf16Units] at h
        split_ifs at h with h1 h2 h2 <;>
          simp only [List.cons_append, List.nil_append, List.cons.injEq] at h
        · exact ⟨Fin.ext h.1, h.2⟩
        · omega
        · omega
        · exact ⟨Fin.ext (by omega), h.2.2⟩
      rw [hrest.1, utf16Units_injective (fun x hx => hs x (List.mem_cons_of_mem c hx))
        (fun x hx => ht x (List.mem_cons_of_mem d hx)) hrest.2]

theorem utf16BeEncode_injective {s t : PyStr} (hs : Scalar s) (ht : Scalar t)
    (h : utf16BeEncode s = utf16BeEncode t) : s = t :=
  utf16Units_injective hs ht (octetPairs_injective (utf16Units_lt s) (utf16Units_lt t) h)

/-! ## Hexadecimal text -/

def hexDigit (d : ℕ) : CodePoint := codePoint (if d < 10 then 48 + d else 87 + d)

def hex (bs : Bytes) : PyStr := bs.flatMap fun b => [hexDigit (b.val / 16), hexDigit (b.val % 16)]

theorem hexDigit_val {d : ℕ} (h : d < 16) : (hexDigit d).val = if d < 10 then 48 + d else 87 + d := by
  unfold hexDigit
  split_ifs with h10
  · exact codePoint_val _ (by omega)
  · exact codePoint_val _ (by omega)

theorem hexDigit_injective {d e : ℕ} (hd : d < 16) (he : e < 16) (h : hexDigit d = hexDigit e) : d = e := by
  have hv := congrArg Fin.val h
  rw [hexDigit_val hd, hexDigit_val he] at hv
  split_ifs at hv <;> omega

theorem hex_length (bs : Bytes) : (hex bs).length = 2 * bs.length := by
  induction bs with
  | nil => rfl
  | cons b bs ih =>
    rw [hex, List.flatMap_cons, List.length_append, ← hex, ih, List.length_cons]
    simp only [List.length_cons, List.length_nil]
    omega

theorem mem_hex {bs : Bytes} {c : CodePoint} (h : c ∈ hex bs) : ∃ d < 16, c = hexDigit d := by
  rw [hex, List.mem_flatMap] at h
  obtain ⟨b, -, hc⟩ := h
  have hb := b.isLt
  rcases List.mem_cons.mp hc with rfl | hc
  · exact ⟨b.val / 16, by omega, rfl⟩
  · exact ⟨b.val % 16, by omega, List.mem_singleton.mp hc⟩

theorem hex_injective : ∀ {l m : Bytes}, hex l = hex m → l = m
  | [], [], _ => rfl
  | [], _ :: _, h => by simp [hex] at h
  | _ :: _, [], h => by simp [hex] at h
  | b :: l, c :: m, h => by
      simp only [hex, List.flatMap_cons, List.cons_append, List.nil_append, List.cons.injEq] at h
      obtain ⟨hhi, hlo, htail⟩ := h
      have hb := b.isLt
      have hc := c.isLt
      have h1 := hexDigit_injective (by omega) (by omega) hhi
      have h2 := hexDigit_injective (by omega) (by omega) hlo
      have hbc : b = c := Fin.ext (by omega)
      rw [hbc, hex_injective htail]

end OcorRuntime

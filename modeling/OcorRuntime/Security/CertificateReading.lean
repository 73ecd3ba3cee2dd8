import OcorRuntime.Security.Der

/-! When the DER reading of certificates fails closed: what it returns, or refuses with an
error of the control plane, and what makes an `IndexError` or a `ValueError` escape. Elements
are read here from the octets alone, with zero for an octet that is missing. -/
namespace OcorRuntime.Security
set_option autoImplicit false
set_option maxHeartbeats 250000

/-! ## Outcomes -/

/-- `isinstance(error, SecurityControlError)`. -/
def IsControlError (e : PyError) : Prop := ∃ reason, e.cls = .securityControlError reason

/-- It returns, or raises an error of the control plane. -/
def FailsClosed {α : Type} (x : Except PyError α) : Prop := ∀ e, x = .error e → IsControlError e

/-- It returns if the condition holds, and raises some other error if not. -/
def ReadsWhen {α : Type} (x : Except PyError α) (C : Prop) : Prop :=
  (C ∧ ∃ a, x = .ok a) ∨ (¬ C ∧ ∃ e, x = .error e ∧ ¬ IsControlError e)

section
variable {α β : Type} {x : Except PyError α} {f : α → Except PyError β} {C D : Prop}

theorem failsClosed_ok (a : α) : FailsClosed (.ok a : Except PyError α) := fun _ h => nomatch h

theorem failsClosed_error {e : PyError} : FailsClosed (.error e : Except PyError α) ↔ IsControlError e :=
  ⟨fun h => h e rfl, fun h _ he => Except.error.inj he ▸ h⟩

theorem ReadsWhen.ok_iff (h : ReadsWhen x C) : (∃ a, x = .ok a) ↔ C := by
  rcases h with ⟨hC, ha⟩ | ⟨hC, e, rfl, -⟩
  · exact iff_of_true ha hC
  · exact iff_of_false (fun ⟨_, ha⟩ => nomatch ha) hC

theorem ReadsWhen.congr (h : ReadsWhen x C) (hCD : C ↔ D) : ReadsWhen x D := by
  rwa [propext hCD] at h

theorem readsWhen_ok (a : α) : ReadsWhen (.ok a : Except PyError α) True := .inl ⟨trivial, a, rfl⟩

theorem ReadsWhen.bind (h : ReadsWhen x C) (hf : ∀ a, x = .ok a → ReadsWhen (f a) D) : ReadsWhen (x >>= f) (C ∧ D) := by
  rcases h with ⟨hC, a, rfl⟩ | ⟨hC, e, rfl, he⟩
  · exact (hf a rfl).congr (and_iff_right hC).symm
  · exact .inr ⟨fun h => hC h.1, e, rfl, he⟩

theorem ReadsWhen.failsClosed_bind (h : ReadsWhen x C) (hf : ∀ a, x = .ok a → (FailsClosed (f a) ↔ D)) :
    FailsClosed (x >>= f) ↔ C ∧ D := by
  rcases h with ⟨hC, a, rfl⟩ | ⟨hC, e, rfl, he⟩
  · exact (hf a rfl).trans (and_iff_right hC).symm
  · exact iff_of_false (fun h => he (failsClosed_error.1 h)) fun h => hC h.1

theorem readsWhen_refuseIf {bad : Prop} [Decidable bad] {e : PyError} (he : ¬ IsControlError e) :
    ReadsWhen (refuseIf bad e) (¬ bad) := by
  by_cases h : bad
  · exact .inr ⟨not_not.mpr h, e, if_pos h, he⟩
  · exact .inl ⟨h, (), if_neg h⟩

theorem failsClosed_refuseIf {bad : Prop} [Decidable bad] {e : PyError} (he : IsControlError e)
    {f : Unit → Except PyError β} (hf : FailsClosed (f ()) ↔ D) : FailsClosed (refuseIf bad e >>= f) ↔ (¬ bad → D) := by
  by_cases h : bad
  · rw [refuseIf, if_pos h]
    exact iff_of_true (failsClosed_error.2 he) fun hbad => absurd h hbad
  · rw [refuseIf, if_neg h]
    exact hf.trans ⟨fun hD _ => hD, fun hD => hD h⟩

theorem not_controlError_valueError {message : String} {args : List ErrorArg} :
    ¬ IsControlError ⟨.valueError, message, args⟩ := fun ⟨_, h⟩ => nomatch h

theorem isControlError_controlError {reason message : String} {args : List ErrorArg} :
    IsControlError (controlError reason message args) := ⟨reason, rfl⟩

end

/-! ## Elements -/

def octetAt (data : Bytes) (off : ℕ) : ℕ := (data.getD off (byte 0)).val

/-- The first two octets of an element are there. -/
def HeaderAt (data : Bytes) (off : ℕ) : Prop := off + 1 < data.length

instance (data : Bytes) (off : ℕ) : Decidable (HeaderAt data off) := inferInstanceAs (Decidable (_ < _))

/-- The element at an offset. -/
def elementAt (data : Bytes) (off : ℕ) : Tlv :=
  let length := octetAt data (off + 1)
  if length < 0x80 then ⟨octetAt data off, length, off + 2, off + 2 + length⟩
  else
    let start := off + 2 + (length - 0x80)
    let long := fromBytes (slice data (off + 2) start)
    ⟨octetAt data off, long, start, start + long⟩

theorem readsWhen_octet (data : Bytes) (off : ℕ) : ReadsWhen (octet data off) (off < data.length) := by
  rw [octet]
  by_cases h : off < data.length
  · rw [List.getElem?_eq_getElem h]
    exact .inl ⟨h, _, rfl⟩
  · rw [List.getElem?_eq_none (not_lt.mp h)]
    exact .inr ⟨h, _, rfl, fun ⟨_, hcls⟩ => nomatch hcls⟩

theorem octet_eq_ok {data : Bytes} {off value : ℕ} (h : octet data off = .ok value) : value = octetAt data off := by
  rw [octet] at h
  rw [octetAt, List.getD_eq_getElem?_getD]
  cases hget : data[off]? with
  | none =>
    rw [hget] at h
    cases h
  | some b =>
    rw [hget] at h
    exact (Except.ok.inj h).symm

theorem octetAt_lt (data : Bytes) (off : ℕ) : octetAt data off < 256 := (data.getD off (byte 0)).isLt

theorem length_bits : ∀ n < 256, (n &&& 0x80 ≠ 0 ↔ ¬ n < 0x80) ∧ n &&& 0x7F = n % 0x80 := by decide +kernel

theorem readsWhen_tlv (data : Bytes) (off : ℕ) : ReadsWhen (tlv data off) (HeaderAt data off) := by
  have hlast {length : ℕ} {tag : ℕ} : ReadsWhen (if length &&& 0x80 ≠ 0 then do
      let count := length &&& 0x7F
      let long := fromBytes (slice data (off + 2) (off + 2 + count))
      (return ⟨tag, long, off + 2 + count, off + 2 + count + long⟩ : Except PyError Tlv)
      else return ⟨tag, length, off + 2, off + 2 + length⟩) True := by
    split_ifs
    · exact readsWhen_ok _
    · exact readsWhen_ok _
  have h := (readsWhen_octet data off).bind fun tag _ => (readsWhen_octet data (off + 1)).bind fun length _ => @hlast length tag
  refine h.congr ⟨fun h => h.2.1, fun h => ⟨(Nat.lt_succ_self off).trans h, h, trivial⟩⟩

theorem tlv_eq_ok {data : Bytes} {off : ℕ} {element : Tlv} (h : tlv data off = .ok element) :
    element = elementAt data off := by
  simp only [tlv, bind_eq_ok] at h
  obtain ⟨tag, htag, length, hlength, h⟩ := h
  obtain rfl := octet_eq_ok htag
  obtain rfl := octet_eq_ok hlength
  obtain ⟨hlong, hcount⟩ := length_bits (octetAt data (off + 1)) (octetAt_lt data _)
  have hlt := octetAt_lt data (off + 1)
  rw [elementAt]
  by_cases hshort : octetAt data (off + 1) < 0x80
  · rw [if_neg (mt hlong.mp (not_not.mpr hshort))] at h
    rw [if_pos hshort]
    exact (Except.ok.inj h).symm
  · have hmod : octetAt data (off + 1) % 0x80 = octetAt data (off + 1) - 0x80 := by omega
    rw [if_pos (hlong.mpr hshort), hcount, hmod] at h
    rw [if_neg hshort]
    exact (Except.ok.inj h).symm

section
variable {α : Type} {data : Bytes} {off : ℕ} {f : Tlv → Except PyError α} {D : Prop}

theorem readsWhen_element (hf : ReadsWhen (f (elementAt data off)) D) :
    ReadsWhen (tlv data off >>= f) (HeaderAt data off ∧ D) :=
  (readsWhen_tlv data off).bind fun _ h => tlv_eq_ok h ▸ hf

theorem failsClosed_element (hf : FailsClosed (f (elementAt data off)) ↔ D) :
    FailsClosed (tlv data off >>= f) ↔ HeaderAt data off ∧ D :=
  (readsWhen_tlv data off).failsClosed_bind fun _ h => tlv_eq_ok h ▸ hf

end

theorem elementAt_advances (data : Bytes) (off : ℕ) : off < (elementAt data off).stop := by
  rw [elementAt]
  split_ifs
  · exact (by omega : off < off + 2 + octetAt data (off + 1))
  · exact (by omega : off < off + 2 + (octetAt data (off + 1) - 0x80) + _)

/-- The elements from an offset to a limit have their first octets, and each is readable. -/
inductive Elements (data : Bytes) (limit : ℕ) (readable : Tlv → Prop) : ℕ → Prop
  | done {off : ℕ} (h : limit ≤ off) : Elements data limit readable off
  | next {off : ℕ} (hoff : off < limit) (header : HeaderAt data off) (element : readable (elementAt data off))
      (rest : Elements data limit readable (elementAt data off).stop) : Elements data limit readable off

theorem readsWhen_eachElement {σ : Type} {data : Bytes} {limit : ℕ} {step : ℕ → Tlv → σ → Except PyError σ}
    {readable : Tlv → Prop} (hstep : ∀ off element acc, ReadsWhen (step off element acc) (readable element)) (off : ℕ)
    (acc : σ) : ReadsWhen (eachElement data limit step off acc) (Elements data limit readable off) := by
  induction hn : limit - off using Nat.strong_induction_on generalizing off acc with
  | _ n ih =>
    rw [eachElement_eq]
    by_cases hoff : off < limit
    · rw [if_pos hoff]
      have hadvances := elementAt_advances data off
      have hrest (acc : σ) := ih (limit - (elementAt data off).stop) (by omega) (elementAt data off).stop acc rfl
      refine (readsWhen_element ((hstep off (elementAt data off) acc).bind fun acc _ => hrest acc)).congr ?_
      constructor
      · rintro ⟨header, element, rest⟩
        exact .next hoff header element rest
      · intro h
        cases h with
        | done hdone => exact absurd hdone (not_le.mpr hoff)
        | next _ header element rest => exact ⟨header, element, rest⟩
    · rw [if_neg hoff]
      exact (readsWhen_ok acc).congr (iff_of_true trivial (.done (not_lt.mp hoff)))

/-! ## The chain -/

/-- Every element of the chain has its first two octets: none starts at the last octet. -/
def ChainReadable (blob : Bytes) : Prop := Elements blob blob.length (fun _ => True) 0

theorem readsWhen_splitDerChain (blob : Bytes) : ReadsWhen (splitDerChain blob) (ChainReadable blob) :=
  readsWhen_eachElement (fun _ _ _ => readsWhen_ok _) 0 []

/-! ## Texts and times -/

/-- Every octet is ASCII. -/
def Ascii (data : Bytes) : Prop := ∀ b ∈ data, b.val < 0x80

instance (data : Bytes) : Decidable (Ascii data) := List.decidableBAll _ data

theorem all_ascii_iff (data : Bytes) : ¬ ((data.all fun b => b.val < 0x80) = false) ↔ Ascii data := by
  rw [Bool.not_eq_false, List.all_eq_true]
  exact forall₂_congr fun _ _ => decide_eq_true_iff

theorem readsWhen_decodeAscii (data : Bytes) : ReadsWhen (decodeAscii data) (Ascii data) :=
  ((readsWhen_refuseIf not_controlError_valueError).bind fun _ _ => readsWhen_ok _).congr
    ((and_iff_left trivial).trans (all_ascii_iff data))

theorem decodeAscii_eq_ok {data : Bytes} {text : PyStr} (h : decodeAscii data = .ok text) :
    text = data.map fun b => codePoint b.val := by
  simp only [decodeAscii, check_bind_eq_ok] at h
  exact (Except.ok.inj h.2).symm

/-- The fields `datetime` takes. -/
def ValidDateTime (year month day hour minute second : ℤ) : Prop :=
  (1 ≤ year ∧ year ≤ 9999) ∧ (1 ≤ month ∧ month ≤ 12) ∧ (1 ≤ day ∧ day ≤ daysInMonth year.toNat month.toNat) ∧
    (0 ≤ hour ∧ hour ≤ 23) ∧ (0 ≤ minute ∧ minute ≤ 59) ∧ (0 ≤ second ∧ second ≤ 59)

theorem readsWhen_utcTimestamp (year month day hour minute second : ℤ) :
    ReadsWhen (utcTimestamp year month day hour minute second) (ValidDateTime year month day hour minute second) := by
  have hcheck (good : Prop) [Decidable good] (message : String) (args : List ErrorArg) :
      ReadsWhen (refuseIf (¬ good) (⟨.valueError, message, args⟩ : PyError)) good :=
    (readsWhen_refuseIf not_controlError_valueError).congr not_not
  unfold utcTimestamp ValidDateTime
  refine ReadsWhen.bind (hcheck _ _ _) fun _ _ => ?_
  refine ReadsWhen.bind (hcheck _ _ _) fun _ _ => ?_
  refine ReadsWhen.bind (hcheck _ _ _) fun _ _ => ?_
  refine ReadsWhen.bind (hcheck _ _ _) fun _ _ => ?_
  refine ReadsWhen.bind (hcheck _ _ _) fun _ _ => ?_
  exact ((hcheck _ _ _).bind fun _ _ => readsWhen_ok _).congr (and_iff_left trivial)

/-- The number a slice of a text denotes. -/
def numberAt (text : PyStr) (start stop : ℕ) : Option ℤ := Events.intOf (textSlice text start stop)

/-- The five numbers behind a year make a date-time with it. -/
def UtcReadable (text : PyStr) (year : ℤ) (start : ℕ) : Prop :=
  ∃ month day hour minute second, numberAt text start (start + 2) = some month ∧
    numberAt text (start + 2) (start + 4) = some day ∧ numberAt text (start + 4) (start + 6) = some hour ∧
    numberAt text (start + 6) (start + 8) = some minute ∧ numberAt text (start + 8) (start + 10) = some second ∧
    ValidDateTime year month day hour minute second

theorem readsWhen_number {β : Type} {text : PyStr} {f : ℤ → Except PyError β} {D : ℤ → Prop}
    (hf : ∀ n, ReadsWhen (f n) (D n)) : ReadsWhen (intOfText text >>= f) (∃ n, Events.intOf text = some n ∧ D n) := by
  unfold intOfText orRaise
  cases Events.intOf text with
  | none => exact .inr ⟨fun ⟨_, h, _⟩ => (nomatch h), _, rfl, not_controlError_valueError⟩
  | some n => exact (hf n).congr ⟨fun h => ⟨n, rfl, h⟩, fun ⟨m, hm, h⟩ => Option.some.inj hm ▸ h⟩

theorem readsWhen_readUtc (text : PyStr) (year : ℤ) (start : ℕ) :
    ReadsWhen (readUtc text year start) (UtcReadable text year start) := by
  refine (readsWhen_number fun month => readsWhen_number fun day => readsWhen_number fun hour =>
    readsWhen_number fun minute => readsWhen_number fun second =>
      readsWhen_utcTimestamp year month day hour minute second).congr ?_
  constructor
  · rintro ⟨month, hmonth, day, hday, hour, hhour, minute, hminute, second, hsecond, h⟩
    exact ⟨month, day, hour, minute, second, hmonth, hday, hhour, hminute, hsecond, h⟩
  · rintro ⟨month, day, hour, minute, second, hmonth, hday, hhour, hminute, hsecond, h⟩
    exact ⟨month, hmonth, day, hday, hour, hhour, minute, hminute, second, hsecond, h⟩

def octetText (data : Bytes) : PyStr := data.map fun b => codePoint b.val

/-- So many characters, the last one a `Z`. -/
def TimeShape (length : ℕ) (text : PyStr) : Prop := text.length = length ∧ endsWithZ text

instance (length : ℕ) (text : PyStr) : Decidable (TimeShape length text) := inferInstanceAs (Decidable (_ ∧ _))

/-- The numbers of a UTCTime or of a GeneralizedTime make a date-time. -/
def TimeNumbers (text : PyStr) : Prop :=
  if TimeShape 13 text then
    ∃ yy, numberAt text 0 2 = some yy ∧ UtcReadable text (if 50 ≤ yy then 1900 + yy else 2000 + yy) 2
  else ∃ year, numberAt text 0 4 = some year ∧ UtcReadable text year 4

/-- ASCII, but neither a UTCTime nor a GeneralizedTime: the reader refuses it. -/
def TimeRefused (raw : Bytes) : Prop := Ascii raw ∧ ¬ TimeShape 13 (octetText raw) ∧ ¬ TimeShape 15 (octetText raw)

/-- A UTCTime or a GeneralizedTime with numbers that make a date-time. -/
def TimeReadable (raw : Bytes) : Prop :=
  Ascii raw ∧ (TimeShape 13 (octetText raw) ∨ TimeShape 15 (octetText raw)) ∧ TimeNumbers (octetText raw)

theorem readsWhen_readTime {text : PyStr} (h : TimeShape 13 text ∨ TimeShape 15 text) :
    ReadsWhen (readTime text) (TimeNumbers text) := by
  unfold readTime TimeNumbers
  by_cases hshort : TimeShape 13 text
  · have hcond : text.length = 13 ∧ endsWithZ text = true := hshort
    rw [if_pos hshort, if_pos hcond]
    exact readsWhen_number fun yy => readsWhen_readUtc text _ 2
  · have hcond : ¬ (text.length = 13 ∧ endsWithZ text = true) := hshort
    have hlong : text.length = 15 ∧ endsWithZ text = true := h.resolve_left hshort
    rw [if_neg hshort, if_neg hcond, if_pos hlong]
    exact readsWhen_number fun year => readsWhen_readUtc text year 4

theorem failsClosed_time {β : Type} {raw : Bytes} {f : ℤ → Except PyError β} {D : Prop}
    (hf : ∀ n, FailsClosed (f n) ↔ D) : FailsClosed (parseTime raw >>= f) ↔ TimeRefused raw ∨ (TimeReadable raw ∧ D) := by
  rcases readsWhen_decodeAscii raw with ⟨hascii, text, htext⟩ | ⟨hascii, e, he, hcontrol⟩
  · obtain rfl := decodeAscii_eq_ok htext
    have hparse : parseTime raw = readTime (octetText raw) := by
      rw [parseTime, htext]
      rfl
    rw [hparse]
    by_cases hshape : TimeShape 13 (octetText raw) ∨ TimeShape 15 (octetText raw)
    · rw [(readsWhen_readTime hshape).failsClosed_bind fun n _ => hf n]
      constructor
      · exact fun ⟨hnumbers, hD⟩ => .inr ⟨⟨hascii, hshape, hnumbers⟩, hD⟩
      · rintro (hrefused | ⟨hreadable, hD⟩)
        · exact absurd hshape (not_or.mpr hrefused.2)
        · exact ⟨hreadable.2.2, hD⟩
    · obtain ⟨hshort, hlong⟩ := not_or.mp hshape
      have hrefused : readTime (octetText raw) =
          .error (controlError "SVID_CHAIN_INVALID" "unparseable certificate time" []) := by
        unfold TimeShape at hshort hlong
        rw [readTime, if_neg hshort, if_neg hlong]
      rw [hrefused]
      exact iff_of_true (failsClosed_error.2 isControlError_controlError) (.inl ⟨hascii, hshort, hlong⟩)
  · have hparse : parseTime raw = .error e := by
      rw [parseTime, he]
      rfl
    rw [hparse]
    refine iff_of_false (fun h => hcontrol (failsClosed_error.1 h)) ?_
    rintro (h | h)
    · exact hascii h.1
    · exact hascii h.1.1

/-! ## The parts of a certificate -/

/-- The two times of a validity. -/
def notBeforeOf (content : Bytes) : Bytes := (elementAt content 0).content content

def notAfterOf (content : Bytes) : Bytes := (elementAt content (elementAt content 0).stop).content content

def ValidityHeaders (content : Bytes) : Prop := HeaderAt content 0 ∧ HeaderAt content (elementAt content 0).stop

def ValidityRefused (content : Bytes) : Prop :=
  ValidityHeaders content ∧
    (TimeRefused (notBeforeOf content) ∨ (TimeReadable (notBeforeOf content) ∧ TimeRefused (notAfterOf content)))

def ValidityReadable (content : Bytes) : Prop :=
  ValidityHeaders content ∧ TimeReadable (notBeforeOf content) ∧ TimeReadable (notAfterOf content)

theorem failsClosed_validity {β : Type} {content : Bytes} {f : ℤ × ℤ → Except PyError β} {D : Prop}
    (hf : ∀ times, FailsClosed (f times) ↔ D) :
    FailsClosed (parseValidity content >>= f) ↔ ValidityRefused content ∨ (ValidityReadable content ∧ D) := by
  unfold parseValidity
  simp only [bind_assoc, pure_bind]
  rw [failsClosed_element (failsClosed_element (failsClosed_time fun first => failsClosed_time fun last => hf (first, last)))]
  unfold ValidityRefused ValidityReadable ValidityHeaders notBeforeOf notAfterOf
  tauto

theorem readsWhen_firstOid (content : Bytes) : ReadsWhen (firstOid content) (HeaderAt content 0) :=
  (readsWhen_element (f := fun oid => pure (oid.content content)) (readsWhen_ok _)).congr (and_iff_left trivial)

def SpkiReadable (content : Bytes) : Prop :=
  HeaderAt content 0 ∧ HeaderAt ((elementAt content 0).content content) 0 ∧ HeaderAt content (elementAt content 0).stop

theorem readsWhen_parseSpki (content : Bytes) : ReadsWhen (parseSpki content) (SpkiReadable content) := by
  have hkey (oid : Bytes) : ReadsWhen (tlv content (elementAt content 0).stop >>= fun key =>
      (pure (oid, slice content (key.start + 1) key.stop) : Except PyError (Bytes × Bytes)))
      (HeaderAt content (elementAt content 0).stop ∧ True) := readsWhen_element (readsWhen_ok _)
  refine (readsWhen_element ((readsWhen_firstOid _).bind fun oid _ => hkey oid)).congr ?_
  rw [and_iff_left trivial]
  rfl

/-- A general name is readable unless it is a URI that is no ASCII. -/
def NameReadable (names : Bytes) (element : Tlv) : Prop := element.tag = 0x86 → Ascii (element.content names)

theorem readsWhen_addName (names : Bytes) (element : Tlv) (uris : List PyStr) :
    ReadsWhen (addName names element uris) (NameReadable names element) := by
  unfold addName NameReadable
  by_cases htag : element.tag = 0x86
  · rw [if_pos htag]
    exact ((readsWhen_decodeAscii _).bind fun uri _ => readsWhen_ok _).congr
      ⟨fun h _ => h.1, fun h => ⟨h htag, trivial⟩⟩
  · rw [if_neg htag]
    exact (readsWhen_ok _).congr (iff_of_true trivial fun h => absurd h htag)

def NamesReadable (names : Bytes) : Prop :=
  HeaderAt names 0 ∧ ((elementAt names 0).tag = 0x30 →
    Elements names (elementAt names 0).stop (NameReadable names) (elementAt names 0).start)

theorem readsWhen_addNames (names : Bytes) (uris : List PyStr) :
    ReadsWhen (addNames names uris) (NamesReadable names) := by
  unfold addNames NamesReadable
  refine readsWhen_element ?_
  by_cases htag : (elementAt names 0).tag = 0x30
  · rw [if_pos htag]
    exact (readsWhen_eachElement (fun _ element acc => readsWhen_addName names element acc) _ uris).congr
      ⟨fun h _ => h, fun h => h htag⟩
  · rw [if_neg htag]
    exact (readsWhen_ok _).congr (iff_of_true trivial fun h => absurd h htag)

/-- Where the value of an extension starts: behind its identifier, or behind the BOOLEAN that follows that. -/
def valueOffset (ext : Bytes) : ℕ :=
  let oid := elementAt ext 0
  if ext[oid.stop]? = some (byte 0x01) then (elementAt ext oid.stop).stop else oid.stop

def ExtensionReadable (ext : Bytes) : Prop :=
  HeaderAt ext 0 ∧ (ext[(elementAt ext 0).stop]? = some (byte 0x01) → HeaderAt ext (elementAt ext 0).stop) ∧
    HeaderAt ext (valueOffset ext) ∧
    ((elementAt ext 0).content ext = oidSan → NamesReadable ((elementAt ext (valueOffset ext)).content ext))

theorem readsWhen_addExtension (ext : Bytes) (uris : List PyStr) :
    ReadsWhen (addExtension ext uris) (ExtensionReadable ext) := by
  have hvalue : ReadsWhen (tlv ext (valueOffset ext) >>= fun value =>
      if (elementAt ext 0).content ext = oidSan then addNames (value.content ext) uris else return uris)
      (HeaderAt ext (valueOffset ext) ∧
        ((elementAt ext 0).content ext = oidSan → NamesReadable ((elementAt ext (valueOffset ext)).content ext))) := by
    refine readsWhen_element ?_
    by_cases hsan : (elementAt ext 0).content ext = oidSan
    · rw [if_pos hsan]
      exact (readsWhen_addNames _ uris).congr ⟨fun h _ => h, fun h => h hsan⟩
    · rw [if_neg hsan]
      exact (readsWhen_ok _).congr (iff_of_true trivial fun h => absurd h hsan)
  unfold addExtension ExtensionReadable
  refine readsWhen_element ?_
  unfold valueOffset at hvalue ⊢
  by_cases hcritical : ext[(elementAt ext 0).stop]? = some (byte 0x01)
  · simp only [if_pos hcritical, bind_assoc, pure_bind] at hvalue ⊢
    exact (readsWhen_element hvalue).congr (and_congr_left' ⟨fun h _ => h, fun h => h hcritical⟩)
  · simp only [if_neg hcritical] at hvalue ⊢
    exact hvalue.congr (and_iff_right fun h => absurd h hcritical).symm

def UriSansReadable (extensions : Bytes) : Prop :=
  HeaderAt extensions 0 ∧ ((elementAt extensions 0).tag = 0x30 →
    Elements extensions (elementAt extensions 0).stop (fun element => ExtensionReadable (element.content extensions))
      (elementAt extensions 0).start)

theorem readsWhen_parseUriSans (extensions : Bytes) :
    ReadsWhen (parseUriSans extensions) (UriSansReadable extensions) := by
  unfold parseUriSans UriSansReadable
  refine readsWhen_element ?_
  by_cases htag : (elementAt extensions 0).tag = 0x30
  · rw [if_neg (not_not.mpr htag)]
    exact (readsWhen_eachElement (fun _ element acc => readsWhen_addExtension (element.content extensions) acc) _ []).congr
      ⟨fun h _ => h, fun h => h htag⟩
  · rw [if_pos htag]
    exact (readsWhen_ok _).congr (iff_of_true trivial fun h => absurd h htag)

/-! ## Certificates -/

/-- The offset behind the version, if there is one. -/
def behindVersion (der : Bytes) (off : ℕ) : ℕ := if octetAt der off = 0xA0 then (elementAt der off).stop else off

def VersionReadable (der : Bytes) (off : ℕ) : Prop := off < der.length ∧ (octetAt der off = 0xA0 → HeaderAt der off)

theorem failsClosed_version {β : Type} {der : Bytes} {off : ℕ} {f : ℕ → Except PyError β} {D : Prop}
    (hf : FailsClosed (f (behindVersion der off)) ↔ D) :
    FailsClosed (skipVersion der off >>= f) ↔ VersionReadable der off ∧ D := by
  unfold behindVersion at hf
  unfold skipVersion VersionReadable
  simp only [bind_assoc]
  rw [(readsWhen_octet der off).failsClosed_bind (D := (octetAt der off = 0xA0 → HeaderAt der off) ∧ D), and_assoc]
  intro tag htag
  obtain rfl := octet_eq_ok htag
  by_cases hversion : octetAt der off = 0xA0
  · simp only [if_pos hversion, bind_assoc, pure_bind] at hf ⊢
    rw [failsClosed_element hf]
    exact and_congr_left' ⟨fun h _ => h, fun h => h hversion⟩
  · simp only [if_neg hversion, pure_bind] at hf ⊢
    exact hf.trans (and_iff_right fun h => absurd h hversion).symm

def ExtensionsReadable (der : Bytes) (off tbsEnd : ℕ) : Prop :=
  off < tbsEnd → off < der.length ∧
    (octetAt der off = 0xA3 → HeaderAt der off ∧ UriSansReadable ((elementAt der off).content der))

theorem readsWhen_readExtensions (der : Bytes) (off tbsEnd : ℕ) :
    ReadsWhen (readExtensions der off tbsEnd) (ExtensionsReadable der off tbsEnd) := by
  unfold readExtensions ExtensionsReadable
  by_cases hoff : off < tbsEnd
  · rw [if_pos hoff]
    refine ReadsWhen.congr (ReadsWhen.bind (readsWhen_octet der off) fun tag htag => ?_)
      ⟨fun h _ => h, fun h => h hoff⟩
    obtain rfl := octet_eq_ok htag
    by_cases htag : octetAt der off = 0xA3
    · rw [if_pos htag]
      exact (readsWhen_element (readsWhen_parseUriSans _)).congr ⟨fun h _ => h, fun h => h htag⟩
    · rw [if_neg htag]
      exact (readsWhen_ok _).congr (iff_of_true trivial fun h => absurd h htag)
  · rw [if_neg hoff]
    exact (readsWhen_ok _).congr (iff_of_true trivial fun h => absurd h hoff)

/-- What is read behind the validity: the subject, the key and the extensions of a `tbsCertificate` that ends at
`tbsEnd`. -/
def KeyReadable (der : Bytes) (off tbsEnd : ℕ) : Prop :=
  let subject := elementAt der off
  let spki := elementAt der subject.stop
  HeaderAt der off ∧ HeaderAt der subject.stop ∧ SpkiReadable (spki.content der) ∧
    ExtensionsReadable der spki.stop tbsEnd

/-- What is read from the version on. -/
def BodyReadable (der : Bytes) (off tbsEnd : ℕ) : Prop :=
  let serialNumber := elementAt der off
  let innerSignature := elementAt der serialNumber.stop
  let issuer := elementAt der innerSignature.stop
  let validity := elementAt der issuer.stop
  HeaderAt der off ∧ HeaderAt der serialNumber.stop ∧ HeaderAt der innerSignature.stop ∧ HeaderAt der issuer.stop ∧
    (ValidityRefused (validity.content der) ∨
      (ValidityReadable (validity.content der) ∧ KeyReadable der validity.stop tbsEnd))

/-- What is read of a certificate: nothing behind a tag that is refused, and nothing behind a time that is. -/
def CertificateReadable (der : Bytes) : Prop :=
  let outer := elementAt der 0
  let tbs := elementAt der outer.start
  let algorithm := elementAt der tbs.stop
  HeaderAt der 0 ∧ (outer.tag = 0x30 → HeaderAt der outer.start ∧ (tbs.tag = 0x30 →
    HeaderAt der tbs.stop ∧ HeaderAt (algorithm.content der) 0 ∧ HeaderAt der algorithm.stop ∧
      VersionReadable der tbs.start ∧ BodyReadable der (behindVersion der tbs.start) tbs.stop))

/-- **A certificate is read or refused exactly if it is readable.** -/
theorem failsClosed_parseCertificate (der : Bytes) : FailsClosed (parseCertificate der) ↔ CertificateReadable der := by
  unfold parseCertificate CertificateReadable BodyReadable KeyReadable
  refine failsClosed_element ((failsClosed_refuseIf isControlError_controlError ?_).trans (by rw [not_not]))
  refine failsClosed_element ((failsClosed_refuseIf isControlError_controlError ?_).trans (by rw [not_not]))
  refine failsClosed_element ((readsWhen_firstOid _).failsClosed_bind fun sigalgOid _ => ?_)
  refine failsClosed_element (failsClosed_version ?_)
  refine failsClosed_element (failsClosed_element (failsClosed_element (failsClosed_element ?_)))
  refine failsClosed_validity fun times => ?_
  refine failsClosed_element (failsClosed_element ?_)
  refine (readsWhen_parseSpki _).failsClosed_bind fun key _ => ?_
  refine ((readsWhen_readExtensions _ _ _).failsClosed_bind fun uriSans _ => ?_).trans (and_iff_left trivial)
  exact iff_of_true (failsClosed_ok _) trivial

end OcorRuntime.Security

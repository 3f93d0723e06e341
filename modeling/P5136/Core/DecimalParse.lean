import P5136.Core.DotNetDecimal
import P5136.Lib.DecimalDigits
import P5136.Nickname

/-!
# Parsing decimals

The invariant-culture text of a decimal (`parse_invariant_decimal`): signs, parentheses, the currency sign, thousands separators
and an exponent around a text of digits, which is rounded once, half to even, from its exact digits.
-/

namespace P5136
namespace DotNetDecimal

open DecimalDigits Option List

/-! ## The text around the digits -/

def trimStart (text : List Char) : List Char := text.dropWhile isWhitespace

def trimEnd (text : List Char) : List Char := (text.reverse.dropWhile isWhitespace).reverse

/-- `trim`. -/
def trimText (text : List Char) : List Char := trimEnd (trimStart text)

theorem length_trimText_le (text : List Char) : (trimText text).length ≤ text.length := by
  have hend := (dropWhile_sublist (l := (trimStart text).reverse) isWhitespace).length_le
  have hstart := (dropWhile_sublist (l := text) isWhitespace).length_le
  simp only [trimText, trimEnd, trimStart, length_reverse] at hend hstart ⊢
  omega

def trimInvariantCurrency (value : List Char) : List Char :=
  let trimmed := trimText value
  if trimmed.head? = some '¤' then trimInvariantCurrency trimmed.tail
  else if trimmed.getLast? = some '¤' then trimInvariantCurrency trimmed.dropLast
  else trimmed
termination_by value.length
decreasing_by
  · rename_i hhead
    have hle := length_trimText_le value
    have hpos : 0 < (trimText value).length := length_pos_of_mem (mem_of_head? hhead)
    rw [length_tail]
    omega
  · rename_i hlast
    have hle := length_trimText_le value
    have hpos : 0 < (trimText value).length := length_pos_of_mem (mem_of_getLast? hlast)
    rw [length_dropLast]
    omega

/-- What the signs of a text say, and the text without them. -/
structure Signed where
  negative : Bool
  signSeen : Bool
  text : List Char
deriving DecidableEq

/-- The parentheses around a negative number. -/
def readParentheses (value : List Char) : Option Signed :=
  if value.head? = some '(' ∧ value.getLast? = some ')' then some ⟨true, true, trimText value.tail.dropLast⟩
  else if '(' ∈ value ∨ ')' ∈ value then none
  else some ⟨false, false, value⟩

/-- A sign. -/
def isSign (c : Char) : Bool := c == '+' || c == '-'

/-- The sign in front. -/
def readLeadingSign (signed : Signed) : Option Signed :=
  match signed.text with
  | [] => some signed
  | c :: rest =>
    if isSign c then
      if signed.signSeen then none else some ⟨c == '-', true, trimInvariantCurrency (trimStart rest)⟩
    else some signed

/-- The sign behind. -/
def readTrailingSign (signed : Signed) : Option Signed :=
  match signed.text.getLast? with
  | none => some signed
  | some c =>
    if isSign c then
      if signed.signSeen then none
      else some ⟨c == '-', signed.signSeen, trimInvariantCurrency (trimEnd signed.text.dropLast)⟩
    else some signed

/-- The sign of a text, and the text without signs, parentheses and currency signs. -/
def readSigns (input : List Char) : Option (Bool × List Char) :=
  let value := trimText input
  if value = [] ∨ 1 < value.count '¤' then none
  else do
    let parentheses ← readParentheses value
    let leading ← readLeadingSign ⟨parentheses.negative, parentheses.signSeen, trimInvariantCurrency parentheses.text⟩
    let trailing ← readTrailingSign leading
    if trailing.text = [] then none else some (trailing.negative, trailing.text)

/-- The mark in front of an exponent. -/
def isExponentMark (c : Char) : Bool := c == 'e' || c == 'E'

/-- The exponent behind a text, and the text in front of it. -/
def readExponent (parseExponent : List Char → Option Int) (value : List Char) : Option (List Char × Int) :=
  match value.dropWhile (!isExponentMark ·) with
  | [] => some (value, 0)
  | _ :: rest =>
    if rest.any isExponentMark then none
    else do
      let exponent ← parseExponent (trimText rest)
      some (trimEnd (value.takeWhile (!isExponentMark ·)), exponent)

/-- The number of a nonempty text of digits. -/
def parseDigits (text : List Char) : Option Int :=
  if text ≠ [] ∧ AllDigits text then some (digitsValue text) else none

/-- The integer of a text: a sign or none, and digits. -/
def parseInteger : List Char → Option Int
  | '-' :: digits => (parseDigits digits).map (- ·)
  | '+' :: digits => parseDigits digits
  | digits => parseDigits digits

/-- The integers of 64 bits. -/
def InI64 (x : Int) : Prop := -2 ^ 63 ≤ x ∧ x < 2 ^ 63

instance (x : Int) : Decidable (InI64 x) := inferInstanceAs (Decidable (_ ∧ _))

/-- A result of 64-bit arithmetic; there is none when it overflows. -/
def checkedI64 (x : Int) : Option Int := if InI64 x then some x else none

/-- `parse::<i64>`. -/
def parseI64 (text : List Char) : Option Int := (parseInteger text).bind checkedI64

/-! ## The digits -/

/-- What the scan of the digits carries from character to character. -/
structure Scan where
  digits : List Char
  fractionalDigits : Nat
  decimalSeen : Bool
  digitSeen : Bool
deriving DecidableEq

/-- One character: a digit, the point, or a separator in front of the point. The count of a text's digits fits 64 bits. -/
def scanCharacter (scan : Scan) (c : Char) : Option Scan :=
  if c.isDigit then
    some ⟨scan.digits ++ [c], if scan.decimalSeen then scan.fractionalDigits + 1 else scan.fractionalDigits,
      scan.decimalSeen, true⟩
  else if c = '.' ∧ scan.decimalSeen = false then some ⟨scan.digits, scan.fractionalDigits, true, scan.digitSeen⟩
  else if c = ',' ∧ scan.decimalSeen = false ∧ scan.digitSeen = true then some scan
  else none

/-- The parts of a number that are read from a text. -/
structure Numeral where
  negative : Bool
  digits : List Char
  fractionalDigits : Nat
  exponent : Int
deriving DecidableEq

/-- The parts of the number of a text, given how the exponent is read. -/
def readNumeral (parseExponent : List Char → Option Int) (input : List Char) : Option Numeral := do
  let signed ← readSigns input
  let value ← readExponent parseExponent signed.2
  let scan ← value.1.foldlM scanCharacter ⟨[], 0, false, false⟩
  if scan.digitSeen then some ⟨signed.1, scan.digits, scan.fractionalDigits, value.2⟩ else none

/-! ## Rounding the digits -/

/-- A result of 128-bit arithmetic; there is none when it overflows. -/
def checkedU128 (x : Nat) : Option Nat := if x < 2 ^ 128 then some x else none

/-- `parse::<u128>` of a text of digits. -/
def parseU128 (digits : List Char) : Option Nat := if digits = [] then none else checkedU128 (digitsValue digits)

/-- The number of the digits that are kept, zero when there are none. -/
def parseRetained (retained : List Char) : Option Nat := if retained = [] then some 0 else parseU128 retained

def roundedDecimalDigits (digits : List Char) (removed : Nat) : Option Nat :=
  if removed = 0 then parseU128 digits
  else if digits.length < removed then some 0
  else
    match digits.drop (digits.length - removed) with
    | [] => none
    | roundDigit :: rest => do
      let value ← parseRetained (digits.take (digits.length - removed))
      if 5 < digitValue roundDigit ∨
          digitValue roundDigit = 5 ∧ (rest.any (· != '0') = true ∨ value % 2 ≠ 0)
      then checkedU128 (value + 1)
      else some value

/-- The loop of `decimal_from_digits` over the counts of digits to remove. -/
def decimalFromDigitsLoop (digits : List Char) (scale : Nat) (negative : Bool) : List Nat → Option DotNetDecimal
  | [] => none
  | removed :: rest => do
    let mantissa ← roundedDecimalDigits digits removed
    if mantissa ≤ dotnetDecimalMaxMantissa then
      if mantissa = 0 then some zero else some ⟨mantissa, scale - removed, negative⟩
    else decimalFromDigitsLoop digits scale negative rest

/-- `decimal_from_digits` at a negative scale: zeros are appended. -/
def decimalFromScaledUp (digits : List Char) (appended : Nat) (negative : Bool) : Option DotNetDecimal :=
  if 29 < digits.length + appended then none
  else do
    let mantissa ← parseU128 (digits ++ replicate appended '0')
    if mantissa ≤ dotnetDecimalMaxMantissa then some ⟨mantissa, 0, negative⟩ else none

/-- `decimal_from_digits` at a scale that is not negative. -/
def decimalFromScaledDown (digits : List Char) (scale : Nat) (negative : Bool) : Option DotNetDecimal :=
  if digits.length + 28 < scale then some zero
  else
    let minimumRemoved := max (scale - 28) (digits.length - 29)
    if scale < minimumRemoved then none
    else decimalFromDigitsLoop digits scale negative (range' minimumRemoved (scale + 1 - minimumRemoved))

def decimalFromDigits (digits : List Char) (scale : Int) (negative : Bool) : Option DotNetDecimal :=
  if scale < 0 then do
    let appended ← checkedI64 (-scale)
    decimalFromScaledUp digits appended.toNat negative
  else decimalFromScaledDown digits scale.toNat negative

def parseInvariant (value : String) : Option DotNetDecimal := do
  let numeral ← readNumeral parseI64 value.toList
  let significant := numeral.digits.dropWhile (· == '0')
  if significant = [] then some zero
  else do
    let scale ← checkedI64 (numeral.fractionalDigits - numeral.exponent)
    decimalFromDigits significant scale numeral.negative

/-! ## The parts of a number -/

/-- The scan keeps digits only. -/
theorem allDigits_of_scan {text : List Char} {scan result : Scan} (hscan : AllDigits scan.digits)
    (h : text.foldlM scanCharacter scan = some result) : AllDigits result.digits := by
  induction text generalizing scan with
  | nil =>
    obtain rfl : scan = result := by simpa using h
    exact hscan
  | cons c text ih =>
    rw [foldlM_cons, bind_eq_bind, bind_eq_some_iff] at h
    obtain ⟨next, hnext, hrest⟩ := h
    refine ih ?_ hrest
    unfold scanCharacter at hnext
    by_cases hc : c.isDigit = true
    · rw [if_pos hc] at hnext
      obtain rfl := some.inj hnext
      intro d hd
      rcases mem_append.1 hd with hd | hd
      · exact hscan d hd
      · rw [mem_singleton.1 hd]
        exact hc
    · rw [if_neg hc] at hnext
      by_cases hpoint : c = '.' ∧ scan.decimalSeen = false
      · rw [if_pos hpoint] at hnext
        obtain rfl := some.inj hnext
        exact hscan
      · rw [if_neg hpoint] at hnext
        by_cases hcomma : c = ',' ∧ scan.decimalSeen = false ∧ scan.digitSeen = true
        · rw [if_pos hcomma] at hnext
          obtain rfl := some.inj hnext
          exact hscan
        · rw [if_neg hcomma] at hnext
          exact absurd hnext (by simp)

/-- The digits of a number are digits. -/
theorem allDigits_of_readNumeral {parseExponent : List Char → Option Int} {input : List Char} {numeral : Numeral}
    (h : readNumeral parseExponent input = some numeral) : AllDigits numeral.digits := by
  simp only [readNumeral, bind_eq_bind, bind_eq_some_iff] at h
  obtain ⟨signed, -, value, -, scan, hscan, hseen⟩ := h
  by_cases hdigit : scan.digitSeen = true
  · rw [if_pos hdigit] at hseen
    obtain rfl := some.inj hseen
    exact allDigits_of_scan (fun c hc => absurd hc (by simp)) hscan
  · rw [if_neg hdigit] at hseen
    exact absurd hseen (by simp)

/-- Reading the exponent in 64 bits reads it, and checks that it fits. -/
theorem readExponent_parseI64 (value : List Char) :
    readExponent parseI64 value = (readExponent parseInteger value).filter (fun read => decide (InI64 read.2)) := by
  unfold readExponent
  rcases value.dropWhile (!isExponentMark ·) with _ | ⟨mark, rest⟩
  · rfl
  · simp only []
    by_cases hmark : rest.any isExponentMark = true
    · rw [if_pos hmark, if_pos hmark]
      rfl
    · rw [if_neg hmark, if_neg hmark]
      rcases hexponent : parseInteger (trimText rest) with _ | exponent
      · simp [parseI64, hexponent]
      · by_cases hfits : InI64 exponent
        · simp [parseI64, hexponent, checkedI64, hfits, filter_some]
        · simp [parseI64, hexponent, checkedI64, hfits, filter_some]

/-- Reading a number with an exponent of 64 bits reads it, and checks that the exponent fits. -/
theorem readNumeral_parseI64 (input : List Char) :
    readNumeral parseI64 input = (readNumeral parseInteger input).filter (fun numeral => decide (InI64 numeral.exponent)) := by
  unfold readNumeral
  rcases readSigns input with _ | signed
  · rfl
  · simp only [bind_eq_bind, bind_some, readExponent_parseI64]
    rcases readExponent parseInteger signed.2 with _ | ⟨value, exponent⟩
    · rfl
    · by_cases hfits : InI64 exponent
      · simp only [filter_some, hfits, decide_true, if_true, bind_some]
        rcases value.foldlM scanCharacter ⟨[], 0, false, false⟩ with _ | scan
        · rfl
        · rcases hseen : scan.digitSeen with _ | _ <;> simp [hseen, hfits, filter_some]
      · simp only [filter_some, hfits, decide_false, Bool.false_eq_true, if_false, bind_none,
          bind_some]
        rcases value.foldlM scanCharacter ⟨[], 0, false, false⟩ with _ | scan
        · rfl
        · rcases hseen : scan.digitSeen with _ | _ <;> simp [hseen, hfits, filter_some]

/-- The number that the parts stand for. -/
def Numeral.toRat (numeral : Numeral) : ℚ :=
  signFactor numeral.negative * (digitsValue numeral.digits * 10 ^ (numeral.exponent - numeral.fractionalDigits))

/-- The scale a number is written with: the digits after the point less the exponent, and zero when the exponent is larger. -/
def Numeral.writtenScale (numeral : Numeral) : Nat := (numeral.fractionalDigits - numeral.exponent).toNat

/-- The exponent has 64 bits, and so has the scale unless all digits are zero. -/
def Numeral.InRange (numeral : Numeral) : Prop :=
  InI64 numeral.exponent ∧
    (digitsValue numeral.digits = 0 ∨ InI64 (numeral.fractionalDigits - numeral.exponent))

instance (numeral : Numeral) : Decidable numeral.InRange := inferInstanceAs (Decidable (_ ∧ _))

/-! ## The digits are rounded once -/

theorem parseU128_eq {digits : List Char} (hne : digits ≠ []) (hdigits : AllDigits digits) (hlength : digits.length ≤ 29) :
    parseU128 digits = some (digitsValue digits) := by
  have hlt := digitsValue_lt hdigits
  have hpow : 10 ^ digits.length ≤ 10 ^ 29 := Nat.pow_le_pow_right (by norm_num) hlength
  have h29 : 10 ^ 29 < 2 ^ 128 := by norm_num
  rw [parseU128, if_neg hne, checkedU128, if_pos (by omega)]

/-- Removing digits from a text rounds its number half to even. -/
theorem roundedDecimalDigits_eq {digits : List Char} {removed : Nat} (hne : digits ≠ []) (hdigits : AllDigits digits)
    (hlength : digits.length - removed ≤ 29) :
    roundedDecimalDigits digits removed = some (divHalfEven (digitsValue digits) (10 ^ removed)) := by
  unfold roundedDecimalDigits
  rcases removed with _ | removed
  · rw [if_pos rfl, parseU128_eq hne hdigits hlength]
    simp [divHalfEven, Nat.mod_one]
  · rw [if_neg (by omega)]
    by_cases hlong : digits.length < removed + 1
    · rw [if_pos hlong]
      have hlt : digitsValue digits < 10 ^ removed :=
        lt_of_lt_of_le (digitsValue_lt hdigits) (Nat.pow_le_pow_right (by norm_num) (by omega))
      have hdiv : digitsValue digits / 10 ^ (removed + 1) = 0 :=
        Nat.div_eq_of_lt (lt_trans hlt (Nat.pow_lt_pow_right (by norm_num) (by omega)))
      rw [divHalfEven_pow_succ, Nat.div_eq_of_lt hlt, hdiv]
      simp
    · rw [if_neg hlong]
      have hsplit := take_append_drop (digits.length - (removed + 1)) digits
      have hdroplength : (digits.drop (digits.length - (removed + 1))).length = removed + 1 := by
        rw [length_drop]
        omega
      have htakelength : (digits.take (digits.length - (removed + 1))).length = digits.length - (removed + 1) := by
        rw [length_take]
        omega
      generalize digits.take (digits.length - (removed + 1)) = retained at hsplit htakelength ⊢
      rcases hdrop : digits.drop (digits.length - (removed + 1)) with _ | ⟨roundDigit, rest⟩
      · rw [hdrop] at hdroplength
        simp at hdroplength
      · rw [hdrop] at hsplit hdroplength
        have hrestlength : rest.length = removed := by simpa using hdroplength
        have hretained : AllDigits retained := fun c hc => hdigits c (by rw [← hsplit]; simp [hc])
        have hrest : AllDigits rest := fun c hc => hdigits c (by rw [← hsplit]; simp [hc])
        have hround : roundDigit.isDigit = true := hdigits roundDigit (by rw [← hsplit]; simp)
        have hdiscarded : AllDigits (roundDigit :: rest) := by
          intro c hc
          rcases mem_cons.1 hc with rfl | hc
          · exact hround
          · exact hrest c hc
        have hvalue : parseRetained retained = some (digitsValue retained) := by
          unfold parseRetained
          by_cases hempty : retained = []
          · rw [if_pos hempty, hempty]
            rfl
          · rw [if_neg hempty]
            exact parseU128_eq hempty hretained (by omega)
        have hhigh := (digitsValue_div_mod retained hdiscarded).1
        have hlow := digitsValue_div_mod (retained ++ [roundDigit]) hrest
        rw [hsplit, length_cons, hrestlength] at hhigh
        rw [append_assoc, singleton_append, hsplit, hrestlength] at hlow
        have hmiddle : digitsValue (retained ++ [roundDigit]) % 10 = digitValue roundDigit := by
          have hone : AllDigits [roundDigit] := fun c hc => by
            rw [mem_singleton.1 hc]
            exact hround
          have := (digitsValue_div_mod retained hone).2
          rwa [digitsValue_singleton, length_singleton, pow_one] at this
        have hsticky : rest.any (· != '0') = true ↔ digitsValue rest ≠ 0 := by
          rw [Ne, digitsValue_eq_zero_iff hrest]
          simp
        have hbound := digitsValue_lt hretained
        have hpow : 10 ^ retained.length ≤ 10 ^ 29 := Nat.pow_le_pow_right (by norm_num) (by omega)
        have h29 : 10 ^ 29 + 1 < 2 ^ 128 := by norm_num
        simp only [hvalue, bind_eq_bind, bind_some]
        have hchecked : checkedU128 (digitsValue retained + 1) = some (digitsValue retained + 1) := by
          rw [checkedU128, if_pos (by omega)]
        rw [divHalfEven_pow_succ, hhigh, hlow.1, hlow.2, hmiddle, hchecked]
        simp only [hsticky]
        split <;> rfl

/-- The loop of `decimal_from_digits` is the search. -/
theorem decimalFromDigitsLoop_eq {digits : List Char} (scale : Nat) (negative : Bool) {candidates : List Nat}
    (hne : digits ≠ []) (hdigits : AllDigits digits) (hlength : ∀ removed ∈ candidates, digits.length - removed ≤ 29) :
    decimalFromDigitsLoop digits scale negative candidates =
      (candidates.find? (fitsAfter (digitsValue digits))).map (ofDigits (digitsValue digits) scale negative) := by
  induction candidates with
  | nil => rfl
  | cons removed candidates ih =>
    have hrounded := roundedDecimalDigits_eq hne hdigits (hlength removed (mem_cons_self ..))
    simp only [decimalFromDigitsLoop, hrounded, bind_eq_bind, bind_some, find?_cons, fitsAfter]
    by_cases hfits : divHalfEven (digitsValue digits) (10 ^ removed) ≤ dotnetDecimalMaxMantissa
    · simp only [hfits, if_true, decide_true, map_some, ofDigits]
      split <;> rfl
    · simp only [hfits, if_false, decide_false]
      exact ih (fun next hnext => hlength next (mem_cons_of_mem _ hnext))

/-- A number of more digits than a mantissa has does not fit. -/
theorem fitsAfter_eq_false {digits : List Char} {c : Char} (removed : Nat) (hc : c.isDigit = true) (hzero : c ≠ '0')
    (h : 29 + removed ≤ digits.length) : fitsAfter (digitsValue (c :: digits)) removed = false := by
  have hbig := le_digitsValue digits hc hzero
  have hpow : 10 ^ 29 * 10 ^ removed ≤ 10 ^ digits.length := by
    rw [← pow_add]
    exact Nat.pow_le_pow_right (by norm_num) h
  have hdiv : 10 ^ 29 ≤ digitsValue (c :: digits) / 10 ^ removed :=
    (Nat.le_div_iff_mul_le (by positivity)).2 (le_trans hpow hbig)
  have hround : digitsValue (c :: digits) / 10 ^ removed ≤ divHalfEven (digitsValue (c :: digits)) (10 ^ removed) := by
    unfold divHalfEven
    split <;> omega
  have hmax : dotnetDecimalMaxMantissa < 10 ^ 29 := by decide
  rw [fitsAfter, decide_eq_false_iff_not]
  omega

/-! ## The number is rounded once -/

/-- A number with digits, of a scale, and its sign. -/
theorem numeral_magnitude {numeral : Numeral} (scale : Nat)
    (hscale : (numeral.fractionalDigits : Int) - numeral.exponent = scale) :
    numeral.toRat = signFactor numeral.negative * ((digitsValue numeral.digits : ℚ) / 10 ^ scale) := by
  have hexponent : numeral.exponent - numeral.fractionalDigits = -(scale : Int) := by omega
  rw [Numeral.toRat, hexponent, zpow_neg, zpow_natCast, div_eq_mul_inv]

/-- At a scale that is not negative the digits are rounded. -/
theorem decimalFromScaledDown_isRounding {r : ℚ} {c : Char} {digits : List Char} {scale : Nat} {negative : Bool}
    (hdigits : AllDigits (c :: digits)) (hzero : c ≠ '0')
    (hr : r = signFactor negative * ((digitsValue (c :: digits) : ℚ) / 10 ^ scale)) :
    IsRounding r scale (decimalFromScaledDown (c :: digits) scale negative) := by
  obtain ⟨habs, hsign⟩ := signed_magnitude hr
  have hc : c.isDigit = true := hdigits c (mem_cons_self ..)
  have hlt := digitsValue_lt hdigits
  unfold decimalFromScaledDown
  by_cases htiny : (c :: digits).length + 28 < scale
  · rw [if_pos htiny]
    have hround : mantissaAt r (scale - (scale - 28)) = 0 := by
      rw [mantissaAt_eq habs (by omega), show scale - 28 = (scale - 29) + 1 by omega]
      have hsmall : digitsValue (c :: digits) < 10 ^ (scale - 29) :=
        lt_of_lt_of_le hlt (Nat.pow_le_pow_right (by norm_num) (by omega))
      rw [divHalfEven_pow_succ, Nat.div_eq_of_lt hsmall,
        Nat.div_eq_of_lt (lt_trans hsmall (Nat.pow_lt_pow_right (by norm_num) (by omega)))]
      simp
    rw [show scale - (scale - 28) = 28 by omega] at hround
    refine ⟨28, by omega, ?_, fun finer hfiner hlt => absurd hfiner (by omega), ?_⟩
    · rw [Fits, hround]
      exact Nat.zero_le _
    · rw [roundedAt, if_pos hround]
  · rw [if_neg htiny]
    by_cases hwide : scale < max (scale - 28) ((c :: digits).length - 29)
    · simp only [hwide, if_true]
      intro coarse hcoarse hfits
      have hno := fitsAfter_eq_false scale hc hzero (show 29 + scale ≤ digits.length by
        rw [length_cons] at hwide
        omega)
      rw [fitsAfter, decide_eq_false_iff_not, ← mantissaAt_eq habs (Nat.le_refl scale), Nat.sub_self] at hno
      exact hno (hfits.mono (Nat.zero_le _))
    · simp only [hwide, if_false]
      rw [decimalFromDigitsLoop_eq scale negative (cons_ne_nil _ _) hdigits (by
        intro removed hremoved
        rw [mem_range'_1] at hremoved
        omega)]
      refine search_isRounding habs hsign (le_max_left _ _) ?_
      intro removed hge hle hbelow
      refine fitsAfter_eq_false removed hc hzero ?_
      rw [length_cons] at hbelow
      omega

/-- At a negative scale the digits are followed by zeros. -/
theorem decimalFromScaledUp_isRounding {r : ℚ} {c : Char} {digits : List Char} {appended : Nat} {negative : Bool}
    (hdigits : AllDigits (c :: digits)) (hzero : c ≠ '0')
    (hr : r = signFactor negative * ((digitsValue (c :: digits) * 10 ^ appended : ℕ) / 10 ^ 0)) :
    IsRounding r 0 (decimalFromScaledUp (c :: digits) appended negative) := by
  obtain ⟨habs, hsign⟩ := signed_magnitude hr
  have hc : c.isDigit = true := hdigits c (mem_cons_self ..)
  have hbig := le_digitsValue digits hc hzero
  have hmantissa : mantissaAt r 0 = digitsValue (c :: digits) * 10 ^ appended := by
    have h := mantissaAt_eq habs (Nat.le_refl 0)
    rw [Nat.sub_self] at h
    rw [h]
    simp [divHalfEven, Nat.mod_one]
  have hpositive : digitsValue (c :: digits) * 10 ^ appended ≠ 0 := by
    have hpow : 0 < 10 ^ digits.length := by positivity
    exact Nat.mul_ne_zero (by omega) (by positivity)
  unfold decimalFromScaledUp
  by_cases hlong : 29 < (c :: digits).length + appended
  · rw [if_pos hlong]
    intro coarse hcoarse hfits
    have hpow : 10 ^ 29 ≤ 10 ^ digits.length * 10 ^ appended := by
      rw [← pow_add]
      rw [length_cons] at hlong
      exact Nat.pow_le_pow_right (by norm_num) (by omega)
    have hvalue : 10 ^ digits.length * 10 ^ appended ≤ digitsValue (c :: digits) * 10 ^ appended :=
      Nat.mul_le_mul_right _ hbig
    have hmax : dotnetDecimalMaxMantissa < 10 ^ 29 := by decide
    have hzeroFits := hfits.mono (Nat.zero_le coarse)
    rw [Fits, hmantissa] at hzeroFits
    omega
  · rw [if_neg hlong]
    have hall : AllDigits ((c :: digits) ++ replicate appended '0') := by
      intro d hd
      rcases mem_append.1 hd with hd | hd
      · exact hdigits d hd
      · rw [eq_of_mem_replicate hd]
        decide
    rw [parseU128_eq (by simp) hall (by rw [length_append, length_replicate]; omega), digitsValue_append_zeros]
    simp only [bind_eq_bind, bind_some]
    by_cases hfits : digitsValue (c :: digits) * 10 ^ appended ≤ dotnetDecimalMaxMantissa
    · rw [if_pos hfits]
      refine ⟨0, Nat.zero_le _, by rw [Fits, hmantissa]; exact hfits, fun finer hfiner hlt => absurd hfiner (by omega), ?_⟩
      have hnegative : negative = decide (r < 0) := by
        rw [Bool.eq_iff_iff, hsign hpositive, decide_eq_true_eq]
      rw [roundedAt, hmantissa, if_neg hpositive, hnegative]
    · rw [if_neg hfits]
      intro coarse hcoarse hcoarseFits
      have hzeroFits := hcoarseFits.mono (Nat.zero_le coarse)
      rw [Fits, hmantissa] at hzeroFits
      exact hfits hzeroFits

/-- The significant digits of a number are rounded once. -/
theorem decimalFromDigits_isRounding {numeral : Numeral} {c : Char} {digits : List Char}
    (hdigits : AllDigits (c :: digits)) (hzero : c ≠ '0') (hvalue : digitsValue (c :: digits) = digitsValue numeral.digits)
    (hnarrow : InI64 numeral.exponent) :
    IsRounding numeral.toRat numeral.writtenScale
      (decimalFromDigits (c :: digits) (numeral.fractionalDigits - numeral.exponent) numeral.negative) := by
  unfold decimalFromDigits Numeral.writtenScale
  by_cases hneg : (numeral.fractionalDigits : Int) - numeral.exponent < 0
  · have hup : InI64 (-((numeral.fractionalDigits : Int) - numeral.exponent)) := by
      unfold InI64 at hnarrow ⊢
      omega
    rw [if_pos hneg, checkedI64, if_pos hup, Int.toNat_of_nonpos hneg.le]
    refine decimalFromScaledUp_isRounding hdigits hzero ?_
    have hexponent : numeral.exponent - numeral.fractionalDigits =
        ((-((numeral.fractionalDigits : Int) - numeral.exponent)).toNat : Int) := by omega
    rw [Numeral.toRat, hexponent, zpow_natCast, hvalue]
    push_cast
    ring
  · rw [if_neg hneg]
    refine decimalFromScaledDown_isRounding hdigits hzero ?_
    rw [numeral_magnitude ((numeral.fractionalDigits : Int) - numeral.exponent).toNat (by omega), hvalue]

/-- A text that reads as a number is rounded once from its exact digits, half to even, to the largest scale of at most 28 and the
written one at which the mantissa fits, and has no decimal exactly when no such scale fits; provided that its exponent and, unless
all its digits are zero, the difference of its digits after the point and the exponent have 64 bits. Any other text has none. Every
result is within the bounds of a decimal. -/
theorem parseInvariant_rounds (value : String) :
    (match readNumeral parseInteger value.toList with
      | some numeral =>
        if numeral.InRange then IsRounding numeral.toRat numeral.writtenScale (parseInvariant value)
        else parseInvariant value = none
      | none => parseInvariant value = none) ∧
    ∀ result, parseInvariant value = some result → result.Valid := by
  have hall := readNumeral_parseI64 value.toList
  rcases hread : readNumeral parseInteger value.toList with _ | numeral
  · have hnone : parseInvariant value = none := by
      simp only [parseInvariant, hall, hread, filter_none, bind_eq_bind, bind_none]
    rw [hnone]
    exact ⟨rfl, fun result hresult => absurd hresult (by simp)⟩
  · have hdigits := allDigits_of_readNumeral hread
    rw [hread, filter_some] at hall
    by_cases hrange : numeral.InRange
    · rw [if_pos (decide_eq_true hrange.1)] at hall
      have hrounds : IsRounding numeral.toRat numeral.writtenScale (parseInvariant value) := by
        simp only [parseInvariant, hall, bind_eq_bind, bind_some]
        have hsame := digitsValue_dropWhile numeral.digits
        rcases hsignificant : numeral.digits.dropWhile (· == '0') with _ | ⟨c, digits⟩
        · rw [hsignificant, digitsValue_nil] at hsame
          rw [if_pos rfl]
          exact isRounding_zero (by rw [Numeral.toRat, ← hsame]; simp) _
        · rw [hsignificant] at hsame
          have hzero : c ≠ '0' := by
            have h := head?_dropWhile_not (· == '0') numeral.digits
            rw [hsignificant] at h
            simpa using h
          have hsub : AllDigits (c :: digits) := by
            intro d hd
            rw [← hsignificant] at hd
            exact hdigits d ((dropWhile_sublist _).mem hd)
          have hpositive : digitsValue numeral.digits ≠ 0 := by
            have hbig := le_digitsValue digits (hsub c (mem_cons_self ..)) hzero
            have hpow : 0 < 10 ^ digits.length := by positivity
            omega
          have hscale := hrange.2.resolve_left hpositive
          rw [if_neg (cons_ne_nil _ _), checkedI64, if_pos hscale]
          exact decimalFromDigits_isRounding hsub hzero hsame hrange.1
      simp only [if_pos hrange]
      refine ⟨hrounds, ?_⟩
      intro result hresult
      exact (hresult ▸ hrounds).valid
    · have hnone : parseInvariant value = none := by
        by_cases hexponent : InI64 numeral.exponent
        · rw [if_pos (decide_eq_true hexponent)] at hall
          have hwide : digitsValue numeral.digits ≠ 0 ∧ ¬ InI64 (numeral.fractionalDigits - numeral.exponent) := by
            refine ⟨fun h => hrange ⟨hexponent, Or.inl h⟩, fun h => hrange ⟨hexponent, Or.inr h⟩⟩
          have hsignificant : numeral.digits.dropWhile (· == '0') ≠ [] := by
            intro hempty
            have hsame := digitsValue_dropWhile numeral.digits
            rw [hempty] at hsame
            exact hwide.1 hsame.symm
          simp only [parseInvariant, hall, bind_eq_bind, bind_some, if_neg hsignificant, checkedI64,
            if_neg hwide.2, bind_none]
        · rw [if_neg (by simpa using hexponent)] at hall
          simp only [parseInvariant, hall, bind_eq_bind, bind_none]
      simp only [if_neg hrange, hnone]
      exact ⟨trivial, fun result hresult => absurd hresult (by simp)⟩

-- A tie goes to the even digit, and a number written with more digits than a mantissa has loses the last ones.
example : parseInvariant " (¤1,234.5) " = some ⟨12345, 1, true⟩ := by decide +kernel
example : parseInvariant "25e-29" = some ⟨2, 28, false⟩ := by decide +kernel
example : parseInvariant "7.92281625142643375935439503355" = some ⟨7922816251426433759354395034, 27, false⟩ := by
  decide +kernel

/-- A number of one digit and a negative exponent has a rounding. -/
theorem not_isRounding_none {exponent : Int} (hexponent : exponent ≤ -1) (natural : Nat) :
    ¬ IsRounding (Numeral.toRat ⟨false, ['1'], 0, exponent⟩) natural none := by
  intro hnone
  have hvalue : digitsValue ['1'] = 1 := by decide
  have htiny : |Numeral.toRat ⟨false, ['1'], 0, exponent⟩| * 10 ^ 0 < 1 / 2 := by
    have hpow : (10 : ℚ) ^ exponent ≤ 10 ^ (-1 : Int) := zpow_le_zpow_right₀ (by norm_num) hexponent
    have hpos : (0 : ℚ) < 10 ^ exponent := zpow_pos (by norm_num) _
    simp only [Numeral.toRat, hvalue, signFactor, Bool.false_eq_true, if_false, Nat.cast_one, Nat.cast_zero, sub_zero,
      one_mul, pow_zero, mul_one, abs_of_pos hpos]
    refine lt_of_le_of_lt hpow ?_
    norm_num
  refine hnone 0 (Nat.zero_le _) ?_
  rw [Fits, mantissaAt, halfEven_eq_zero htiny]
  exact Nat.zero_le _

/-- A well-formed text of a number that rounds to zero, and has no decimal: its exponent does not have 64 bits. -/
theorem parseInvariant_rounds_false :
    ¬ ∀ (value : String) (numeral : Numeral), readNumeral parseInteger value.toList = some numeral →
      IsRounding numeral.toRat numeral.writtenScale (parseInvariant value) := by
  intro h
  have hnone : parseInvariant "1e-9223372036854775809" = none := by decide +kernel
  have hread : readNumeral parseInteger "1e-9223372036854775809".toList =
      some ⟨false, ['1'], 0, -9223372036854775809⟩ := by decide +kernel
  have hround := h "1e-9223372036854775809" ⟨false, ['1'], 0, -9223372036854775809⟩ hread
  rw [hnone] at hround
  exact not_isRounding_none (by decide) _ hround

end DotNetDecimal
end P5136

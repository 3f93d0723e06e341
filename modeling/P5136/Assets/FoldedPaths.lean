import P5136.Assets.Catalogs
import P5136.Assets.Names

/-!
# Folded paths

Texts that are the same without case fold to the same path, and slashes of the other kind make no difference.
-/

namespace P5136

namespace Assets

/-- A character trimmed before or after it is made lower case. -/
theorem trimMatches_map {f : Char → Char} {p : Char → Bool} (h : ∀ c, p (f c) = p c) (cs : List Char) :
    trimMatches p (cs.map f) = (trimMatches p cs).map f := by
  have hp : p ∘ f = p := funext h
  unfold trimMatches
  rw [List.dropWhile_map, hp, ← List.map_reverse, List.dropWhile_map, hp, List.map_reverse]

/-- Paths are folded the same before and after they are made lower case. -/
theorem foldPath_eq (path : String) :
    foldPath path = .ofList (trimMatches (· == '/') (withSlashes (path.toList.map Char.toLower))) := by
  have hslash (c : Char) : (c.toLower == '/') = (c == '/') := by
    have hiff := TrackBundle.toLower_eq_iff (c := c) (d := '/') (by decide) (by decide)
    rw [Bool.eq_iff_iff, beq_iff_eq, beq_iff_eq, hiff]
  have hback (c : Char) : c.toLower = '\\' ↔ c = '\\' := TrackBundle.toLower_eq_iff (by decide) (by decide)
  unfold foldPath withSlashes
  rw [← trimMatches_map hslash, List.map_map, List.map_map]
  congr 2
  refine List.map_congr_left fun c _ => ?_
  simp only [Function.comp_apply, hback]
  split
  · decide
  · rfl

/-- Paths that are the same without case are folded to the same. -/
theorem foldPath_eq_of_ignoreCase {left right : String} (h : eqIgnoreAsciiCase left right = true) :
    foldPath left = foldPath right := by
  rw [foldPath_eq, foldPath_eq, beq_iff_eq.1 h]

/-- A path is folded like the path with slashes. -/
theorem foldPath_withSlashes (path : String) : foldPath (.ofList (withSlashes path.toList)) = foldPath path := by
  have hidem : withSlashes (withSlashes path.toList) = withSlashes path.toList := by
    unfold withSlashes
    rw [List.map_map]
    refine List.map_congr_left fun c _ => ?_
    by_cases hc : c = '\\'
    · subst hc
      rfl
    · simp [hc]
  unfold foldPath
  rw [String.toList_ofList, hidem]

/-! ## Texts without case -/

/-- Comparing without case is transitive on texts that are compared with the same one. -/
theorem ignoreCase_trans {a b c : String} (hab : eqIgnoreAsciiCase a b = true) (hbc : eqIgnoreAsciiCase b c = true) :
    eqIgnoreAsciiCase a c = true :=
  beq_iff_eq.2 ((beq_iff_eq.1 hab).trans (beq_iff_eq.1 hbc))

/-- Comparing without case is symmetric. -/
theorem ignoreCase_symm {a b : String} (h : eqIgnoreAsciiCase a b = true) : eqIgnoreAsciiCase b a = true :=
  beq_iff_eq.2 (beq_iff_eq.1 h).symm

/-- A text is itself without case. -/
theorem ignoreCase_refl (a : String) : eqIgnoreAsciiCase a a = true := beq_iff_eq.2 rfl

end Assets

end P5136

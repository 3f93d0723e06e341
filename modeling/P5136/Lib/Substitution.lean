import Mathlib.Data.List.Nodup

/-!
# Substitution tables

A table of images of codes, and the table that a loop over the codes leaves when it writes each code at its image. When no two
codes share an image, it reads every code of the loop back.
-/

namespace Substitution

variable {α : Type*} {n : Nat}

/-- The table that a loop over the codes leaves when it writes each code at its image. -/
def invert (image : α → Fin n) (blank : Vector α n) (codes : List α) : Vector α n :=
  codes.foldl (fun inverse code => inverse.set (image code) code) blank

/-- The loop leaves a place as it is that no code has as its image. -/
theorem invert_get_of_ne {image : α → Fin n} {place : Fin n} {codes : List α} (h : ∀ code ∈ codes, image code ≠ place)
    (blank : Vector α n) : (invert image blank codes).get place = blank.get place := by
  induction codes generalizing blank with
  | nil => rfl
  | cons code codes ih =>
    have hne : (image code : Nat) ≠ place := fun heq => h code (List.mem_cons_self ..) (Fin.ext heq)
    have hrest := ih (fun later hlater => h later (List.mem_cons_of_mem _ hlater)) (blank.set (image code) code)
    refine hrest.trans ?_
    exact Vector.getElem_set_ne (image code).2 place.2 hne

/-- When no two codes share an image, the table reads every code of the loop back. -/
theorem invert_get {image : α → Fin n} (hinj : Function.Injective image) {code : α} {codes : List α} (h : code ∈ codes)
    (blank : Vector α n) : (invert image blank codes).get (image code) = code := by
  induction codes generalizing blank with
  | nil => cases h
  | cons first codes ih =>
    by_cases hlater : code ∈ codes
    · exact ih hlater _
    · obtain rfl : code = first := (List.mem_cons.1 h).resolve_right hlater
      have hne : ∀ later ∈ codes, image later ≠ image code := fun later hmem heq => hlater (hinj heq ▸ hmem)
      refine (invert_get_of_ne hne _).trans ?_
      exact Vector.getElem_set_self (image code).2

/-- A table in which no entry occurs twice has other entries at other codes. -/
theorem get_injective {table : Vector α n} (h : table.toList.Nodup) : Function.Injective table.get := by
  intro left right heq
  have hlength : table.toList.length = n := Vector.length_toList
  have hentries : table.toList.get (left.cast hlength.symm) = table.toList.get (right.cast hlength.symm) := heq
  have hindex := List.nodup_iff_injective_get.1 h hentries
  simpa only [Fin.ext_iff, Fin.val_cast] using hindex

end Substitution

import Mathlib.Data.List.Find
import Mathlib.Data.List.Nodup
import Mathlib.Data.List.TakeWhile

/-!
# Elements that stand by others

A list follows an order of names: an element is put in directly before the first element of the next name of the order that is
there, else directly behind the first one of the last name before it that is there, else at the end. Here one element stands by
its anchor while others are put in, and the question is whether it still does.
-/

namespace Anchors

open List Option

variable {α : Type*} [DecidableEq α]

/-! ## Anchors -/

/-- What an element stands by: it is directly before the first element of a name, or directly behind it. -/
inductive Anchor (α : Type*) where
  | before (name : α)
  | behind (name : α)
deriving DecidableEq

/-- The name of an anchor. -/
def Anchor.name : Anchor α → α
  | .before name | .behind name => name

/-- The names ahead of one in an order. -/
def ahead (order : List α) (name : α) : List α := order.takeWhile (· ≠ name)

/-- The names after one in an order. -/
def following (order : List α) (name : α) : List α := (order.dropWhile (· ≠ name)).drop 1

/-- The anchor of a name among those that are there, none when there is none in the order. -/
def anchor (order here : List α) (name : α) : Option (Anchor α) :=
  if name ∈ order then
    (((following order name).find? (· ∈ here)).map .before).or (((ahead order name).reverse.find? (· ∈ here)).map .behind)
  else none

variable {order here pre post : List α} {name other : α}

/-- The names around the first place of one. -/
theorem split_of_notMem (post : List α) (h : name ∉ pre) : ahead (pre ++ name :: post) name = pre ∧ following (pre ++ name :: post) name = post := by
  have hne : ∀ x ∈ pre, decide (x ≠ name) = true := fun x hx => decide_eq_true fun heq => h (heq ▸ hx)
  have hstop : ¬decide (name ≠ name) = true := by simp
  constructor
  · rw [ahead, takeWhile_append_of_pos hne, takeWhile_cons_of_neg (p := (decide <| · ≠ name)) hstop, append_nil]
  · rw [following, dropWhile_append_of_pos hne, dropWhile_cons_of_neg (p := (decide <| · ≠ name)) hstop,
      drop_succ_cons, drop_zero]

/-- An order around the first place of a name. -/
theorem order_eq (h : name ∈ order) : order = ahead order name ++ name :: following order name ∧ name ∉ ahead order name := by
  obtain ⟨pre, post, rfl, hnot⟩ := eq_append_cons_of_mem h
  obtain ⟨hahead, hfollowing⟩ := split_of_notMem post hnot
  rw [hahead, hfollowing]
  exact ⟨rfl, hnot⟩

/-- The anchor of a name by the names around it. -/
theorem anchor_split (here post : List α) (h : name ∉ pre) : anchor (pre ++ name :: post) here name =
    ((post.find? (· ∈ here)).map .before).or ((pre.reverse.find? (· ∈ here)).map .behind) := by
  obtain ⟨hahead, hfollowing⟩ := split_of_notMem post h
  rw [anchor, if_pos (by simp), hahead, hfollowing]

/-- The anchor depends only on which names of the order are there. -/
theorem anchor_congr {there : List α} (h : ∀ x ∈ order, x ∈ here ↔ x ∈ there) :
    anchor order here name = anchor order there name := by
  unfold anchor
  split
  · rename_i hmem
    have hsame (l : List α) (hl : ∀ x ∈ l, x ∈ order) : l.find? (· ∈ here) = l.find? (· ∈ there) :=
      find?_congr fun x hx => decide_eq_decide.2 (h x (hl x hx))
    have horder := (order_eq hmem).1
    rw [hsame _ fun x hx => ?_, hsame _ fun x hx => ?_]
    · exact (takeWhile_sublist _).subset (mem_reverse.1 hx)
    · exact (dropWhile_sublist _).subset (mem_of_mem_drop hx)
  · rfl

/-- An anchor before a name: the name is there and after the other one. -/
theorem of_anchor_before (h : anchor order here name = some (.before other)) : other ∈ following order name ∧ other ∈ here := by
  unfold anchor at h
  split at h
  · cases hfind : (following order name).find? (· ∈ here) with
    | some found =>
      rw [hfind, map_some, some_or] at h
      obtain rfl : found = other := by simpa using h
      exact ⟨mem_of_find?_eq_some hfind, by simpa using find?_some hfind⟩
    | none =>
      rw [hfind, map_none, none_or, map_eq_some_iff] at h
      obtain ⟨_, _, heq⟩ := h
      cases heq
  · cases h

/-- An anchor behind a name: the name is there and ahead of the other one, and no name after that is there. -/
theorem of_anchor_behind (h : anchor order here name = some (.behind other)) :
    other ∈ ahead order name ∧ other ∈ here ∧ name ∈ order ∧ ∀ x ∈ following order name, x ∉ here := by
  unfold anchor at h
  split at h
  · rename_i hmem
    cases hfind : (following order name).find? (· ∈ here) with
    | some found =>
      rw [hfind, map_some, some_or] at h
      cases h
    | none =>
      rw [hfind, map_none, none_or, map_eq_some_iff] at h
      obtain ⟨found, hfound, heq⟩ := h
      obtain rfl : found = other := by simpa using heq
      refine ⟨mem_reverse.1 (mem_of_find?_eq_some hfound), by simpa using find?_some hfound, hmem, ?_⟩
      exact fun x hx => by simpa using find?_eq_none.1 hfind x hx
  · cases h

/-- Without an anchor, a name is not in the order, or no other one of the order is there. -/
theorem of_anchor_none (h : anchor order here name = none) (hmem : name ∈ order) {x : α} (hx : x ∈ order) (hne : x ≠ name) :
    x ∉ here := by
  rw [anchor, if_pos hmem, or_eq_none_iff, map_eq_none_iff, map_eq_none_iff, find?_eq_none,
    find?_eq_none] at h
  rw [(order_eq hmem).1, mem_append, mem_cons] at hx
  rcases hx with hx | hx | hx
  · simpa using h.2 x (mem_reverse.2 hx)
  · exact absurd hx hne
  · simpa using h.1 x hx

/-- The name of an anchor is in the order and there. -/
theorem of_anchor {a : Anchor α} (h : anchor order here name = some a) : a.name ∈ order ∧ a.name ∈ here := by
  cases a with
  | before other =>
    obtain ⟨hfollowing, hhere⟩ := of_anchor_before h
    exact ⟨(dropWhile_sublist _).subset (mem_of_mem_drop hfollowing), hhere⟩
  | behind other =>
    obtain ⟨hahead, hhere, -⟩ := of_anchor_behind h
    exact ⟨(takeWhile_sublist _).subset hahead, hhere⟩

/-! ## Standing by an anchor -/

/-- Between two parts of a list stands an element by its anchor. -/
def Stands (left right : List (Option α)) : Option (Anchor α) → Prop
  | none => right = []
  | some (.before name) => some name ∉ left ∧ ∃ rest, right = some name :: rest
  | some (.behind name) => ∃ rest, left = rest ++ [some name] ∧ some name ∉ rest

/-- Where an element is put in. -/
def place (names : List (Option α)) : Option (Anchor α) → Nat
  | none => names.length
  | some (.before name) => names.idxOf (some name)
  | some (.behind name) => names.idxOf (some name) + 1

/-- The first place of an element that is there is between two parts of a list when it is not in the first one and heads the
second. -/
theorem idxOf_eq_length_iff {left right : List (Option α)} {x : Option α} (h : x ∈ left ++ right) :
    left.length = (left ++ right).idxOf x ↔ x ∉ left ∧ ∃ rest, right = x :: rest := by
  by_cases hleft : x ∈ left
  · have hlt := idxOf_lt_length_of_mem hleft
    rw [idxOf_append_of_mem hleft]
    exact ⟨fun heq => absurd heq hlt.ne', fun hno => absurd hleft hno.1⟩
  · rw [idxOf_append_of_notMem hleft]
    cases right with
    | nil => simp [hleft] at h
    | cons y right =>
      by_cases hy : y = x
      · subst hy
        simp [hleft]
      · rw [idxOf_cons_ne _ hy]
        simp [hy]

/-- An element stands by its anchor exactly when it is where it would be put in among the others. -/
theorem stands_iff {left right : List (Option α)} {own : Option (Anchor α)}
    (h : ∀ a, own = some a → some a.name ∈ left ++ right) : Stands left right own ↔ left.length = place (left ++ right) own := by
  match own with
  | none => simp [Stands, place]
  | some (.before name) => exact (idxOf_eq_length_iff (h _ rfl)).symm
  | some (.behind name) =>
    have hmem : some name ∈ left ++ right := h _ rfl
    rcases left.eq_nil_or_concat' with rfl | ⟨rest, x, rfl⟩
    · simp [Stands, place]
    · have hiff : rest.length = (rest ++ x :: right).idxOf (some name) ↔ _ := idxOf_eq_length_iff (by simpa using hmem)
      rw [Stands, place, append_assoc, singleton_append, length_append, length_singleton,
        Nat.add_right_cancel_iff, hiff]
      constructor
      · rintro ⟨rest', heq, hnot⟩
        obtain ⟨rfl, hx⟩ := append_inj' heq rfl
        exact ⟨hnot, right, by rw [singleton_inj.1 hx]⟩
      · rintro ⟨hnot, rest', heq⟩
        exact ⟨rest, by rw [(cons.inj heq).1], hnot⟩

/-! ## Putting in others -/

/-- The anchor is on the right: an element or the end. -/
def OnRight : Option (Anchor α) → Prop
  | some (.behind _) => False
  | _ => True

/-- Another element as an anchor on the same side. -/
def insteadOf : Option (Anchor α) → α → Anchor α
  | some (.behind _), name => .behind name
  | _, name => .before name

/-- Another element can be told apart and is put in so that the marked one still stands by its anchor: they have different anchors
and that stays the same, or they have the same one and the other element takes its place. -/
def Keeps (order : List α) (mark name : α) (here : List α) (other : α) : Prop :=
  let own := anchor order here name
  let its := anchor order here other
  let new := anchor order (other :: here) name
  mark ∉ order ∧ other ∉ here ∧ (its ≠ own ∧ new = own ∨ its = own ∧ new = some (insteadOf own other))

instance (order : List α) (mark name : α) (here : List α) (other : α) : Decidable (Keeps order mark name here other) :=
  inferInstanceAs (Decidable (_ ∧ _))

/-- One element after the other is put in so that the marked one still stands by its anchor. -/
def KeepsAll (order : List α) (mark name : α) : List α → List α → Prop
  | _, [] => True
  | here, other :: others => Keeps order mark name here other ∧ KeepsAll order mark name (other :: here) others

instance (order : List α) (mark name : α) : (here others : List α) → Decidable (KeepsAll order mark name here others)
  | _, [] => .isTrue trivial
  | here, other :: others =>
    have := instDecidableKeepsAll order mark name (other :: here) others
    inferInstanceAs (Decidable (_ ∧ _))

variable {mark : α} {own its : Option (Anchor α)} {left right front near back : List (Option α)}

omit [DecidableEq α] in
/-- An element that stands behind another one comes right after it. -/
theorem of_stands_concat {x : Option α} {name : α} (h : Stands (left ++ [x]) right (some (.behind name))) :
    x = some name ∧ some name ∉ left := by
  obtain ⟨rest, heq, hnot⟩ := h
  obtain ⟨rfl, hx⟩ := append_inj' heq rfl
  exact ⟨singleton_inj.1 hx, hnot⟩

/-- A place in a list is behind one of its elements or before it. -/
theorem append_eq_cases {β : Type*} {x : β} {left right front back : List β} (h : front ++ back = left ++ x :: right) :
    (∃ near, front = left ++ x :: near ∧ right = near ++ back) ∨ ∃ near, left = front ++ near ∧ back = near ++ x :: right := by
  rcases append_eq_append_iff.1 h with ⟨near, rfl, rfl⟩ | ⟨near, rfl, hright⟩
  · exact .inr ⟨near, rfl, rfl⟩
  · cases near with
    | nil => exact .inr ⟨[], by rw [append_nil, append_nil], hright.symm⟩
    | cons y near =>
      rw [cons_append] at hright
      obtain ⟨rfl, rfl⟩ := cons.inj hright
      exact .inl ⟨near, rfl, rfl⟩

omit [DecidableEq α] in
/-- What is put in right of the marked element has its anchor exactly when that is on the right and nothing comes between. -/
theorem same_right (hown : Stands left (near ++ back) own) (hits : Stands (left ++ some mark :: near) back its)
    (hmark : ∀ a, its = some a → a.name ≠ mark) : its = own ↔ near = [] ∧ OnRight own := by
  constructor
  · rintro rfl
    match its with
    | none => exact ⟨(append_eq_nil_iff.1 hown).1, trivial⟩
    | some (.before name) =>
      refine ⟨?_, trivial⟩
      obtain ⟨-, rest, heq⟩ := hown
      by_contra hne
      obtain ⟨x, near, rfl⟩ := exists_cons_of_ne_nil hne
      rw [(cons.inj heq).1] at hits
      exact absurd (by simp) hits.1
    | some (.behind name) =>
      obtain ⟨rest, rfl, -⟩ := hown
      rcases near.eq_nil_or_concat' with rfl | ⟨near, x, rfl⟩
      · exact absurd (Option.some.inj (of_stands_concat hits).1).symm (hmark _ rfl)
      · rw [← cons_append, ← append_assoc] at hits
        exact absurd (by simp) (of_stands_concat hits).2
  · rintro ⟨rfl, hright⟩
    match own, its with
    | none, none => rfl
    | none, some (.before name) =>
      obtain ⟨-, rest, rfl⟩ := hits
      cases hown
    | some (.before other), none =>
      obtain ⟨-, rest, heq⟩ := hown
      obtain rfl : back = [] := hits
      cases heq
    | some (.before other), some (.before name) =>
      obtain ⟨-, rest, rfl⟩ := hits
      obtain ⟨-, rest', heq⟩ := hown
      rw [Option.some.inj (cons.inj heq).1]
    | _, some (.behind name) => exact absurd (Option.some.inj (of_stands_concat hits).1).symm (hmark _ rfl)

omit [DecidableEq α] in
/-- What is put in left of the marked element has its anchor exactly when that is on the left and nothing comes between. -/
theorem same_left (hown : Stands (front ++ near) right own) (hits : Stands front (near ++ some mark :: right) its)
    (hmark : ∀ a, its = some a → a.name ≠ mark) : its = own ↔ near = [] ∧ ¬OnRight own := by
  constructor
  · rintro rfl
    match its with
    | none => simp [Stands] at hits
    | some (.before name) =>
      obtain ⟨-, rest, heq⟩ := hits
      cases near with
      | nil => exact absurd (Option.some.inj (cons.inj heq).1).symm (hmark _ rfl)
      | cons x near =>
        rw [(cons.inj heq).1] at hown
        exact absurd (by simp) hown.1
    | some (.behind name) =>
      refine ⟨?_, id⟩
      by_contra hne
      obtain ⟨near, x, rfl⟩ := near.eq_nil_or_concat'.resolve_left hne
      obtain ⟨rest, rfl, -⟩ := hits
      rw [← append_assoc] at hown
      exact absurd (by simp) (of_stands_concat hown).2
  · rintro ⟨rfl, hleft⟩
    match own, its with
    | none, _ => exact absurd trivial hleft
    | some (.before _), _ => exact absurd trivial hleft
    | some (.behind _), none => simp [Stands] at hits
    | some (.behind _), some (.before name) =>
      obtain ⟨-, rest, heq⟩ := hits
      exact absurd (Option.some.inj (cons.inj heq).1).symm (hmark _ rfl)
    | some (.behind other), some (.behind name) =>
      rw [append_nil] at hown
      obtain ⟨rest, rfl, -⟩ := hits
      rw [Option.some.inj (of_stands_concat hown).1]

/-- The marked element still stands by its anchor when another one is put in on its right. -/
theorem stands_right (hown : Stands left (near ++ back) (anchor order here name))
    (hits : Stands (left ++ some mark :: near) back (anchor order here other))
    (hhere : ∀ x, x ∈ here ↔ some x ∈ left ++ (near ++ back)) (hkeeps : Keeps order mark name here other) :
    Stands left (near ++ some other :: back) (anchor order (other :: here) name) := by
  obtain ⟨hmark, hother, hkeeps⟩ := hkeeps
  have hsame := same_right hown hits fun a ha heq => hmark (heq ▸ (of_anchor ha).1)
  rcases hkeeps with ⟨hdiff, hnew⟩ | ⟨heq, hnew⟩
  · rw [hnew]
    rw [Ne, hsame] at hdiff
    match hanchor : anchor order here name with
    | some (.behind _) =>
      rw [hanchor] at hown
      exact hown
    | none =>
      rw [hanchor] at hown hdiff
      exact absurd ⟨(append_eq_nil_iff.1 hown).1, trivial⟩ hdiff
    | some (.before _) =>
      -- the anchor is among the elements between
      rw [hanchor] at hown hdiff
      obtain ⟨x, near, rfl⟩ := exists_cons_of_ne_nil fun hnil => hdiff ⟨hnil, trivial⟩
      obtain ⟨hnot, rest, heq⟩ := hown
      exact ⟨hnot, near ++ some other :: back, by rw [(cons.inj heq).1, cons_append]⟩
  · obtain ⟨rfl, hright⟩ := hsame.1 heq
    have hnew : anchor order (other :: here) name = some (.before other) := by
      rw [hnew]
      match anchor order here name, hright with
      | none, _ => rfl
      | some (.before _), _ => rfl
    rw [hnew]
    exact ⟨fun hmem => hother ((hhere other).2 (mem_append_left _ hmem)), back, rfl⟩

/-- The marked element still stands by its anchor when another one is put in on its left. -/
theorem stands_left (hown : Stands (front ++ near) right (anchor order here name))
    (hits : Stands front (near ++ some mark :: right) (anchor order here other))
    (hhere : ∀ x, x ∈ here ↔ some x ∈ front ++ near ++ right) (hkeeps : Keeps order mark name here other) :
    Stands (front ++ some other :: near) right (anchor order (other :: here) name) := by
  obtain ⟨hmark, hother, hkeeps⟩ := hkeeps
  have hsame := same_left hown hits fun a ha heq => hmark (heq ▸ (of_anchor ha).1)
  rcases hkeeps with ⟨hdiff, hnew⟩ | ⟨heq, hnew⟩
  · rw [hnew]
    rw [Ne, hsame] at hdiff
    match hanchor : anchor order here name with
    | none =>
      rw [hanchor] at hown
      exact hown
    | some (.before c) =>
      rw [hanchor] at hown
      have hc : c ≠ other := fun heq => hother (heq ▸ (of_anchor hanchor).2)
      exact ⟨fun hmem => hown.1 (by simpa [hc] using hmem), hown.2⟩
    | some (.behind c) =>
      rw [hanchor] at hown hdiff
      obtain ⟨near, x, rfl⟩ := near.eq_nil_or_concat'.resolve_left fun hnil => hdiff ⟨hnil, id⟩
      rw [← append_assoc] at hown
      obtain ⟨rfl, hnot⟩ := of_stands_concat hown
      have hc : c ≠ other := fun heq => hother (heq ▸ (of_anchor hanchor).2)
      exact ⟨front ++ some other :: near, by simp, fun hmem => hnot (by simpa [hc] using hmem)⟩
  · obtain ⟨rfl, hleft⟩ := hsame.1 heq
    have hnew : anchor order (other :: here) name = some (.behind other) := by
      rw [hnew]
      match anchor order here name, hleft with
      | none, h => exact absurd trivial h
      | some (.before _), h => exact absurd trivial h
      | some (.behind _), _ => rfl
    rw [hnew]
    exact ⟨front, rfl, fun hmem => hother ((hhere other).2 (by simp [hmem]))⟩

/-! ## Orders without repetitions -/

/-- A name after another one: both are in the order. -/
theorem of_following {x : α} (h : x ∈ following order name) : name ∈ order ∧ x ∈ order := by
  refine ⟨?_, (dropWhile_sublist _).subset (mem_of_mem_drop h)⟩
  by_contra hnot
  have hne : ∀ y ∈ order, decide (y ≠ name) = true := fun y hy => decide_eq_true fun heq => hnot (heq ▸ hy)
  rw [following, dropWhile_eq_nil_iff.2 hne] at h
  cases h

/-- The marked element does not stand by its anchor and never will: what is right of it is not after it in the order, and either a
name after it is there, or something is right of it and nothing of the order left of it. -/
def Broken (order : List α) (name : α) (here : List α) (left right : List (Option α)) : Prop :=
  (∀ x ∈ following order name, right.head? ≠ some (some x)) ∧
    ((∃ x ∈ following order name, x ∈ here) ∨ right ≠ [] ∧ (name ∈ order → ∀ x ∈ order, left.getLast? ≠ some (some x)))

/-- Then it does not stand by its anchor. -/
theorem Broken.not_stands (h : Broken order name here left right) : ¬Stands left right (anchor order here name) := by
  obtain ⟨hhead, hrest⟩ := h
  intro hstands
  match hanchor : anchor order here name with
  | some (.before c) =>
    rw [hanchor] at hstands
    obtain ⟨-, rest, rfl⟩ := hstands
    exact hhead c (of_anchor_before hanchor).1 rfl
  | some (.behind c) =>
    rw [hanchor] at hstands
    obtain ⟨rest, rfl, -⟩ := hstands
    obtain ⟨-, -, hmem, hnone⟩ := of_anchor_behind hanchor
    rcases hrest with ⟨x, hx, hhere⟩ | ⟨-, hlast⟩
    · exact hnone x hx hhere
    · exact hlast hmem c (of_anchor hanchor).1 getLast?_concat
  | none =>
    rw [hanchor] at hstands
    rcases hrest with ⟨x, hx, hhere⟩ | ⟨hne, -⟩
    · unfold anchor at hanchor
      split at hanchor
      · rw [or_eq_none_iff, map_eq_none_iff, find?_eq_none] at hanchor
        simpa [hhere] using hanchor.1 x hx
      · rename_i hnot
        exact hnot (of_following hx).1
    · exact hne hstands

/-- In an order without repetitions, what is after a name that is after another one is after that one. -/
theorem following_trans (hnodup : order.Nodup) {x : α} (hother : other ∈ following order name) (hx : x ∈ following order other) :
    x ∈ following order name := by
  have horder := (order_eq (of_following hother).1).1
  obtain ⟨pre, post, hsplit, -⟩ := eq_append_cons_of_mem hother
  have hwhole : order = (ahead order name ++ name :: pre) ++ other :: post := by
    rw [append_assoc, cons_append, ← hsplit]
    exact horder
  have hpost : following order other = post := by
    have hnot : other ∉ ahead order name ++ name :: pre := fun hmem =>
      (nodup_append.1 (hwhole ▸ hnodup)).2.2 other hmem other mem_cons_self rfl
    calc following order other = following ((ahead order name ++ name :: pre) ++ other :: post) other := by rw [← hwhole]
      _ = post := (split_of_notMem _ hnot).2
  rw [hsplit]
  exact mem_append_right _ (mem_cons_of_mem _ (hpost ▸ hx))

theorem broken_right (h : Broken order name here left (near ++ back)) (hnodup : order.Nodup) (hmark : mark ∉ order)
    (hother : other ∉ here) (hits : Stands (left ++ some mark :: near) back (anchor order here other)) :
    Broken order name (other :: here) left (near ++ some other :: back) := by
  obtain ⟨hhead, hrest⟩ := h
  refine ⟨fun x hx heq => ?_, ?_⟩
  · cases near with
    | cons y near => exact hhead x hx heq
    | nil =>
      obtain rfl : other = x := by simpa using heq
      match hanchor : anchor order here other with
      | none =>
        rw [hanchor] at hits
        obtain rfl : back = [] := hits
        rcases hrest with ⟨y, hy, hhere⟩ | ⟨hne, -⟩
        · exact of_anchor_none hanchor (of_following hx).2 (of_following hy).2 (fun heq => hother (heq ▸ hhere)) hhere
        · exact hne rfl
      | some (.before c) =>
        rw [hanchor] at hits
        obtain ⟨-, rest, rfl⟩ := hits
        exact hhead c (following_trans hnodup hx (of_anchor_before hanchor).1) rfl
      | some (.behind c) =>
        rw [hanchor] at hits
        have hc := (of_stands_concat hits).1
        exact hmark (some.inj hc ▸ (of_anchor hanchor).1)
  · rcases hrest with ⟨y, hy, hhere⟩ | ⟨-, hlast⟩
    · exact .inl ⟨y, hy, mem_cons_of_mem _ hhere⟩
    · exact .inr ⟨by simp, hlast⟩

theorem broken_left (h : Broken order name here (front ++ near) right) (hmark : mark ∉ order)
    (hits : Stands front (near ++ some mark :: right) (anchor order here other)) :
    Broken order name (other :: here) (front ++ some other :: near) right := by
  obtain ⟨hhead, hrest⟩ := h
  refine ⟨hhead, ?_⟩
  rcases hrest with ⟨y, hy, hhere⟩ | ⟨hne, hlast⟩
  · exact .inl ⟨y, hy, mem_cons_of_mem _ hhere⟩
  · refine .inr ⟨hne, fun hmem x hx heq => ?_⟩
    rcases near.eq_nil_or_concat' with rfl | ⟨near, y, rfl⟩
    · obtain rfl : other = x := by simpa using heq
      match hanchor : anchor order here other with
      | none =>
        rw [hanchor] at hits
        simp [Stands] at hits
      | some (.before c) =>
        rw [hanchor] at hits
        obtain ⟨-, rest, hcons⟩ := hits
        exact hmark (some.inj (cons.inj hcons).1 ▸ (of_anchor hanchor).1)
      | some (.behind c) =>
        rw [hanchor] at hits
        obtain ⟨rest, rfl, -⟩ := hits
        exact hlast hmem c (of_anchor hanchor).1 (by simp)
    · refine hlast hmem x hx ?_
      rw [← cons_append, ← append_assoc, getLast?_concat] at heq
      rw [← append_assoc, getLast?_concat, heq]
/-- A name comes after another one: it is its new anchor and has its old one, or the anchor stays and is not its own. -/
theorem anchor_of_following (hnodup : order.Nodup) (hname : name ∉ here) (hother : other ∉ here)
    (hafter : other ∈ following order name) :
    anchor order (other :: here) name = some (.before other) ∧ anchor order here other = anchor order here name ∨
      anchor order (other :: here) name = anchor order here name ∧ anchor order here other ≠ anchor order here name := by
  obtain ⟨horder, hnot⟩ := order_eq (of_following hafter).1
  obtain ⟨pre, post, hsplit, hpre⟩ := eq_append_cons_of_mem hafter
  generalize ahead order name = front at horder hnot
  rw [hsplit] at horder
  subst horder
  have hfar : other ∉ front ++ name :: pre := fun hmem => by
    rw [← cons_append, ← append_assoc] at hnodup
    exact (nodup_append.1 hnodup).2.2 other hmem other mem_cons_self rfl
  have hits := anchor_split here post hfar
  rw [append_assoc, cons_append] at hits
  have hnew : (pre ++ other :: post).find? (· ∈ other :: here) = (pre.find? (· ∈ here)).or (some other) := by
    rw [find?_append, find?_cons_of_pos (by simp)]
    congr 1
    exact find?_congr fun x hx => decide_eq_decide.2 (by simp [show x ≠ other from fun heq => hpre (heq ▸ hx)])
  rw [hits, anchor_split _ _ hnot, anchor_split _ _ hnot, hnew, find?_append, find?_cons_of_neg (by simpa using hother)]
  cases hfind : pre.find? (· ∈ here) with
  | none =>
    left
    refine ⟨rfl, ?_⟩
    rw [reverse_append, reverse_cons, append_assoc, find?_append, find?_append]
    have hpre' : pre.reverse.find? (· ∈ here) = none :=
      find?_eq_none.2 fun x hx => find?_eq_none.1 hfind x (mem_reverse.1 hx)
    rw [hpre', find?_cons_of_neg (by simpa using hname)]
    simp
  | some found =>
    right
    refine ⟨rfl, fun heq => ?_⟩
    have hfound := mem_of_find?_eq_some hfind
    have hpost : found ∈ post := by
      have hbefore : anchor (front ++ name :: (pre ++ other :: post)) here other = some (.before found) := by
        rw [hits, heq]
        rfl
      have hafter' := (of_anchor_before hbefore).1
      have hwhole := (split_of_notMem post hfar).2
      rw [append_assoc, cons_append] at hwhole
      rwa [hwhole] at hafter'
    simp only [nodup_append, nodup_cons, mem_append, mem_cons] at hnodup
    grind

/-- A name comes ahead of another one: it is its new anchor and has its old one, or the anchor stays, and is after the other one
when it is its own. -/
theorem anchor_of_ahead (hnodup : order.Nodup) (hmem : name ∈ order) (hname : name ∉ here) (hother : other ∉ here)
    (hahead : other ∈ ahead order name) :
    anchor order (other :: here) name = some (.behind other) ∧ anchor order here other = anchor order here name ∨
      anchor order (other :: here) name = anchor order here name ∧
        (anchor order here other = anchor order here name → ∃ c, anchor order here name = some (.before c)) := by
  obtain ⟨horder, hnot⟩ := order_eq hmem
  generalize following order name = rest at horder
  obtain ⟨pre, post, hsplit, hpre⟩ := eq_append_cons_of_mem hahead
  rw [hsplit] at horder hnot
  subst horder
  have hits := anchor_split here (post ++ name :: rest) hpre
  rw [← cons_append, ← append_assoc] at hits
  have hapart : ∀ x ∈ rest ++ post, x ≠ other := by
    rintro x hx rfl
    simp only [nodup_append, nodup_cons, mem_append, mem_cons] at hnodup
    grind
  have hsame (l : List α) (hl : ∀ x ∈ l, x ∈ rest ++ post) : l.find? (· ∈ other :: here) = l.find? (· ∈ here) :=
    find?_congr fun x hx => decide_eq_decide.2 (by simp [hapart x (hl x hx)])
  rw [hits, anchor_split _ _ hnot, anchor_split _ _ hnot, hsame rest fun x hx => mem_append_left _ hx, find?_append]
  simp only [reverse_append, reverse_cons, append_assoc, find?_append, singleton_append]
  rw [hsame post.reverse fun x hx => mem_append_right _ (mem_reverse.1 hx),
    find?_cons_of_pos (a := other) (by simp), find?_cons_of_neg (a := other) (by simpa using hother)]
  cases hrest : rest.find? (· ∈ here) with
  | some c => exact .inr ⟨rfl, fun _ => ⟨c, rfl⟩⟩
  | none =>
    have hreverse : post.reverse.find? (· ∈ here) = none ↔ post.find? (· ∈ here) = none := by
      simp [find?_eq_none]
    cases hpost : post.find? (· ∈ here) with
    | none =>
      left
      rw [hreverse.2 hpost, find?_cons_of_neg (by simpa using hname), hrest]
      exact ⟨rfl, rfl⟩
    | some c =>
      right
      obtain ⟨d, hd⟩ := ne_none_iff_exists'.1 fun hnone => by
        rw [hreverse.1 hnone] at hpost
        cases hpost
      rw [hd]
      refine ⟨rfl, fun heq => ?_⟩
      cases heq

/-- In an order without repetitions, a name with another anchor than the marked element does not become its anchor. -/
theorem anchor_cons_eq (hnodup : order.Nodup) (hname : name ∉ here) (hother : other ∉ here) (hne : other ≠ name)
    (h : anchor order here other ≠ anchor order here name) : anchor order (other :: here) name = anchor order here name := by
  by_cases hmem : name ∈ order
  · by_cases hmem' : other ∈ order
    · rw [(order_eq hmem).1, mem_append, mem_cons] at hmem'
      rcases hmem' with hahead | heq | hafter
      · rcases anchor_of_ahead hnodup hmem hname hother hahead with ⟨-, heq⟩ | ⟨hsame, -⟩
        · exact absurd heq h
        · exact hsame
      · exact absurd heq hne
      · rcases anchor_of_following hnodup hname hother hafter with ⟨-, heq⟩ | ⟨hsame, -⟩
        · exact absurd heq h
        · exact hsame
    · exact anchor_congr fun x hx => by simp [show x ≠ other from fun heq => hmem' (heq ▸ hx)]
  · rw [anchor, anchor, if_neg hmem, if_neg hmem]

/-- In an order without repetitions, an element that is put in so that the marked one does not keep its anchor has the same
anchor and does not take its place. -/
theorem of_not_keeps (hnodup : order.Nodup) (hmark : mark ∉ order) (hname : name ∉ here) (hother : other ∉ here)
    (hne : other ≠ name) (h : ¬Keeps order mark name here other) :
    anchor order here other = anchor order here name ∧
      anchor order (other :: here) name ≠ some (insteadOf (anchor order here name) other) := by
  have hsame : anchor order here other = anchor order here name := by
    by_contra hdiff
    exact h ⟨hmark, hother, .inl ⟨hdiff, anchor_cons_eq hnodup hname hother hne hdiff⟩⟩
  exact ⟨hsame, fun hnew => h ⟨hmark, hother, .inr ⟨hsame, hnew⟩⟩⟩

/-- In an order without repetitions, the marked element is broken off when another one is put in on its right and it does not keep
its anchor. -/
theorem broken_of_right (hnodup : order.Nodup) (hmark : mark ∉ order) (hname : name ∉ here) (hother : other ∉ here)
    (hne : other ≠ name) (hhere : ∀ x, x ∈ here ↔ some x ∈ left ++ (near ++ back))
    (hown : Stands left (near ++ back) (anchor order here name))
    (hits : Stands (left ++ some mark :: near) back (anchor order here other))
    (hbreaks : ¬Keeps order mark name here other) : Broken order name (other :: here) left (near ++ some other :: back) := by
  obtain ⟨hsame, hnew⟩ := of_not_keeps hnodup hmark hname hother hne hbreaks
  obtain ⟨rfl, hright⟩ := (same_right hown hits fun a ha heq => hmark (heq ▸ (of_anchor ha).1)).1 hsame
  -- the other element is right beside, and is not after the marked one
  have hnot : other ∉ following order name := by
    intro hafter
    rcases anchor_of_following hnodup hname hother hafter with ⟨hbefore, -⟩ | ⟨-, hdiff⟩
    · refine hnew (hbefore.trans ?_)
      match anchor order here name, hright with
      | none, _ => rfl
      | some (.before _), _ => rfl
    · exact hdiff hsame
  refine ⟨fun x hx heq => hnot ?_, ?_⟩
  · obtain rfl : other = x := by simpa using heq
    exact hx
  · match hanchor : anchor order here name, hright with
    | some (.before c), _ => exact .inl ⟨c, (of_anchor_before hanchor).1, mem_cons_of_mem _ (of_anchor_before hanchor).2⟩
    | none, _ =>
      refine .inr ⟨by simp, fun hmem x hx hlast => ?_⟩
      have hhere' : x ∈ here := (hhere x).2 (mem_append_left _ (mem_of_getLast? hlast))
      exact of_anchor_none hanchor hmem hx (fun heq => hname (heq ▸ hhere')) hhere'

/-- The marked element is broken off when another one is put in on its left and it does not keep its anchor. -/
theorem broken_of_left (hnodup : order.Nodup) (hmark : mark ∉ order) (hname : name ∉ here) (hother : other ∉ here)
    (hne : other ≠ name) (hhere : ∀ x, x ∈ here ↔ some x ∈ front ++ near ++ right)
    (hown : Stands (front ++ near) right (anchor order here name))
    (hits : Stands front (near ++ some mark :: right) (anchor order here other))
    (hbreaks : ¬Keeps order mark name here other) : Broken order name (other :: here) (front ++ some other :: near) right := by
  obtain ⟨hsame, hnew⟩ := of_not_keeps hnodup hmark hname hother hne hbreaks
  obtain ⟨rfl, hleft⟩ := (same_left hown hits fun a ha heq => hmark (heq ▸ (of_anchor ha).1)).1 hsame
  match hanchor : anchor order here name, hleft with
  | none, h => exact absurd trivial h
  | some (.before _), h => exact absurd trivial h
  | some (.behind c), _ =>
    obtain ⟨-, -, hmem, hnone⟩ := of_anchor_behind hanchor
    rw [hanchor] at hsame hnew
    obtain ⟨-, -, hmem', -⟩ := of_anchor_behind hsame
    refine ⟨fun x hx heq => hnone x hx ((hhere x).2 (mem_append_right _ (mem_of_head? heq))), .inl ?_⟩
    -- the other element is after the marked one
    refine ⟨other, ?_, mem_cons_self⟩
    rw [(order_eq hmem).1, mem_append, mem_cons] at hmem'
    rcases hmem' with hahead | heq | hafter
    · rcases anchor_of_ahead hnodup hmem hname hother hahead with ⟨hbehind, -⟩ | ⟨-, hbefore⟩
      · exact absurd hbehind hnew
      · obtain ⟨d, hd⟩ := hbefore (hsame.trans hanchor.symm)
        rw [hanchor] at hd
        cases hd
    · exact absurd heq hne
    · exact hafter

/-! ## Right or left -/

/-- Another element is put in where it stands by its anchor, right or left of the marked one. -/
def PutIn (mark other : α) (its : Option (Anchor α)) (left right left' right' : List (Option α)) : Prop :=
  (∃ near back, right = near ++ back ∧ left' = left ∧ right' = near ++ some other :: back ∧
    Stands (left ++ some mark :: near) back its) ∨
  ∃ front near, left = front ++ near ∧ left' = front ++ some other :: near ∧ right' = right ∧
    Stands front (near ++ some mark :: right) its

namespace PutIn

variable {left' right' : List (Option α)}

theorem stands (h : PutIn mark other (anchor order here other) left right left' right')
    (hhere : ∀ x, x ∈ here ↔ some x ∈ left ++ right) (hown : Stands left right (anchor order here name))
    (hkeeps : Keeps order mark name here other) : Stands left' right' (anchor order (other :: here) name) := by
  rcases h with ⟨near, back, rfl, rfl, rfl, hits⟩ | ⟨front, near, rfl, rfl, rfl, hits⟩
  · exact stands_right hown hits hhere hkeeps
  · exact stands_left hown hits hhere hkeeps

theorem broken (h : PutIn mark other (anchor order here other) left right left' right') (hnodup : order.Nodup)
    (hmark : mark ∉ order) (hother : other ∉ here) (hbroken : Broken order name here left right) :
    Broken order name (other :: here) left' right' := by
  rcases h with ⟨near, back, rfl, rfl, rfl, hits⟩ | ⟨front, near, rfl, rfl, rfl, hits⟩
  · exact broken_right hbroken hnodup hmark hother hits
  · exact broken_left hbroken hmark hits

theorem broken_of_stands (h : PutIn mark other (anchor order here other) left right left' right') (hnodup : order.Nodup)
    (hmark : mark ∉ order) (hname : name ∉ here) (hother : other ∉ here) (hne : other ≠ name)
    (hhere : ∀ x, x ∈ here ↔ some x ∈ left ++ right) (hown : Stands left right (anchor order here name))
    (hbreaks : ¬Keeps order mark name here other) : Broken order name (other :: here) left' right' := by
  rcases h with ⟨near, back, rfl, rfl, rfl, hits⟩ | ⟨front, near, rfl, rfl, rfl, hits⟩
  · exact broken_of_right hnodup hmark hname hother hne hhere hown hits hbreaks
  · exact broken_of_left hnodup hmark hname hother hne hhere hown hits hbreaks

end PutIn

end Anchors

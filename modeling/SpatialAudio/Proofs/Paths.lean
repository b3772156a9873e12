import Mathlib.Logic.Relation
import SpatialAudio.Session.Files

/-!
# Proofs/Paths — which paths are equal, and which lead to one file

Neither is said by the parts of a path: **paths are equal** if one can be rewritten into the other
by repeating a slash, putting a dot between slashes, or ending in slashes and dots
(`DatasetPath.Equal`); they **lead to one file** if that can be done without touching their ends,
but with a dot in front (`DatasetPath.Meets`).  Both are decided by normal forms: the key of a path
(`key_eq_iff`) and its place (`place_eq_iff`).
-/

namespace SpatialAudio

open Relation

namespace DatasetPath

/-! ## Rewriting -/

/-- What may be written between the parts of a path, and what it says. -/
inductive Respelled : List Char → List Char → Prop
  | slash (a b : List Char) : Respelled (a ++ '/' :: '/' :: b) (a ++ '/' :: b)
  | dot (a b : List Char) : Respelled (a ++ '/' :: '.' :: '/' :: b) (a ++ '/' :: b)

/-- What may be written at the end of a path. -/
inductive Ended : List Char → List Char → Prop
  | slash {a : List Char} (h : a ≠ []) : Ended (a ++ ['/']) a
  | dot (a : List Char) : Ended (a ++ ['/', '.']) (a ++ ['/'])

/-- What may be written in front of a path that does not start at the root. -/
inductive Fronted : List Char → List Char → Prop
  | dot {b : List Char} (h : b.head? ≠ some '/') : Fronted ('.' :: '/' :: b) b

/-- A path may be written anew, with another end. -/
def SameText : List Char → List Char → Prop := EqvGen fun a b => Respelled a b ∨ Ended a b

/-- A path may be written anew, with another start. -/
def SameWay : List Char → List Char → Prop := EqvGen fun a b => Respelled a b ∨ Fronted a b

/-- Two paths are equal. -/
def Equal (p q : DatasetPath) : Prop := SameText p.toList q.toList

theorem Equal.refl (p : DatasetPath) : p.Equal p := EqvGen.refl _

theorem Equal.symm {p q : DatasetPath} (h : p.Equal q) : q.Equal p := EqvGen.symm _ _ h

theorem Equal.trans {p q r : DatasetPath} (h : p.Equal q) (h' : q.Equal r) : p.Equal r :=
  EqvGen.trans _ _ _ h h'

/-- Two paths lead to one file. -/
def Meets (p q : DatasetPath) : Prop := SameWay p.toList q.toList

/-! ## Parts -/

/-- The text of parts between slashes. -/
def join (first : List Char) (others : List (List Char)) : List Char :=
  first ++ others.flatMap ('/' :: ·)

theorem join_nil (first : List Char) : join first [] = first := List.append_nil first

/-- The parts behind the second go on from the text of the first two. -/
theorem join_cons (first part : List Char) (rest : List (List Char)) :
    join first (part :: rest) = join (first ++ '/' :: part) rest := by
  rw [join, join, List.flatMap_cons, List.append_assoc]

theorem split_slash (rest : List Char) :
    split ('/' :: rest) = ([], (split rest).1 :: (split rest).2) := rfl

theorem split_cons {c : Char} (h : c ≠ '/') (rest : List Char) :
    split (c :: rest) = (c :: (split rest).1, (split rest).2) := if_neg h

theorem join_split (text : List Char) : join (split text).1 (split text).2 = text := by
  induction text with
  | nil => rfl
  | cons c rest ih =>
    by_cases hc : c = '/'
    · rw [hc, split_slash]
      exact congrArg ('/' :: ·) ih
    · rw [split_cons hc]
      exact congrArg (c :: ·) ih

theorem split_append_slash (a b : List Char) :
    split (a ++ '/' :: b) = ((split a).1, (split a).2 ++ (split b).1 :: (split b).2) := by
  induction a with
  | nil => exact split_slash b
  | cons c a ih =>
    by_cases hc : c = '/'
    · rw [hc, List.cons_append, split_slash, split_slash, ih]
      rfl
    · rw [List.cons_append, split_cons hc, split_cons hc, ih]

/-- No part holds a slash. -/
theorem slash_notMem_split (text : List Char) : ∀ part ∈ (split text).1 :: (split text).2,
    '/' ∉ part := by
  induction text with
  | nil => exact List.forall_mem_singleton.mpr List.not_mem_nil
  | cons c rest ih =>
    by_cases hc : c = '/'
    · rw [hc, split_slash]
      exact List.forall_mem_cons.mpr ⟨List.not_mem_nil, ih⟩
    · obtain ⟨hfirst, hothers⟩ := List.forall_mem_cons.mp ih
      rw [split_cons hc]
      refine List.forall_mem_cons.mpr ⟨fun h => ?_, hothers⟩
      exact (List.mem_cons.mp h).elim (fun h => hc h.symm) hfirst

/-- Only a text that starts at the root has an empty first part in front of others. -/
theorem head?_of_split {text : List Char} (hfirst : (split text).1 = [])
    (hothers : (split text).2 ≠ []) : text.head? = some '/' := by
  cases text with
  | nil => exact absurd rfl hothers
  | cons c rest =>
    by_cases hc : c = '/'
    · rw [hc, List.head?_cons]
    · rw [split_cons hc] at hfirst
      cases hfirst

theorem leads_eq_false {part : List Char} : leads part = false ↔ part = [] ∨ part = ['.'] := by
  rw [leads, decide_eq_false_iff_not, Decidable.not_and_iff_not_or_not, Decidable.not_not,
    Decidable.not_not]

/-- A part that does not lead on may be left out in front of another. -/
theorem respelled_join {part : List Char} (h : leads part = false) (first next : List Char)
    (rest : List (List Char)) :
    Respelled (join first (part :: next :: rest)) (join first (next :: rest)) := by
  have htext : ∀ middle, join (first ++ middle) (next :: rest)
      = first ++ (middle ++ '/' :: (next ++ rest.flatMap ('/' :: ·))) := fun middle => by
    rw [join, List.flatMap_cons, List.append_assoc, List.cons_append]
  rw [join_cons]
  have hnone := htext []
  rw [List.append_nil, List.nil_append] at hnone
  rw [htext, hnone]
  obtain rfl | rfl := leads_eq_false.mp h
  · exact .slash _ _
  · exact .dot _ _

/-! ## Equal paths -/

/-- Behind a first part, parts that do not lead on may be left out. -/
theorem sameText_join {first : List Char} (h : first ≠ []) (others : List (List Char)) :
    SameText (join first others) (join first (others.filter leads)) := by
  induction others generalizing first with
  | nil => exact .refl _
  | cons part rest ih =>
    cases hpart : leads part with
    | true =>
      rw [List.filter_cons_of_pos hpart, join_cons, join_cons]
      exact ih (by simp)
    | false =>
      rw [List.filter_cons_of_neg (by simp [hpart])]
      refine EqvGen.trans _ _ _ ?_ (ih h)
      cases rest with
      | cons next rest => exact .rel _ _ (.inl (respelled_join hpart first next rest))
      | nil =>
        rw [join_cons, join_nil, join_nil]
        obtain rfl | rfl := leads_eq_false.mp hpart
        · exact .rel _ _ (.inr (.slash h))
        · exact .trans _ _ _ (.rel _ _ (.inr (.dot first))) (.rel _ _ (.inr (.slash h)))

/-- Behind the root a slash stays if nothing else does. -/
theorem sameText_join_nil {others : List (List Char)} (h : others ≠ []) :
    SameText (join [] others)
      (if others.filter leads = [] then ['/'] else join [] (others.filter leads)) := by
  induction others with
  | nil => exact absurd rfl h
  | cons part rest ih =>
    cases hpart : leads part with
    | true =>
      rw [List.filter_cons_of_pos hpart, if_neg (List.cons_ne_nil _ _), join_cons, join_cons]
      exact sameText_join (List.cons_ne_nil _ _) rest
    | false =>
      rw [List.filter_cons_of_neg (by simp [hpart])]
      cases rest with
      | cons next rest =>
        refine .trans _ _ _ (.rel _ _ (.inl (respelled_join hpart [] next rest))) ?_
        exact ih (List.cons_ne_nil _ _)
      | nil =>
        rw [List.filter_nil, if_pos rfl, join_cons, join_nil]
        obtain rfl | rfl := leads_eq_false.mp hpart
        · exact .refl _
        · exact .rel _ _ (.inr (.dot []))

/-- The shortest text of a key. -/
def keyText : List (List Char) → List Char
  | [] => []
  | [[]] => ['/']
  | first :: others => join first others

theorem sameText_keyText (text : List Char) : SameText text (keyText (keyOf text)) := by
  rw [keyOf]
  split
  · next h => exact h ▸ .refl _
  · next htext =>
    have hsplit := join_split text
    generalize hfirst : (split text).1 = first at hsplit ⊢
    generalize hothers : (split text).2 = others at hsplit ⊢
    cases first with
    | cons c first =>
      have := sameText_join (List.cons_ne_nil c first) others
      rwa [hsplit] at this
    | nil =>
      have hne : others ≠ [] := fun h => htext (by rw [← hsplit, h, join_nil])
      have := sameText_join_nil hne
      rw [hsplit] at this
      cases hfilter : others.filter leads with
      | nil => rwa [hfilter, if_pos rfl] at this
      | cons part rest => rwa [hfilter, if_neg (List.cons_ne_nil _ _)] at this

/-- Rewriting keeps the key. -/
theorem keyOf_respelled {a b : List Char} (h : Respelled a b) : keyOf a = keyOf b := by
  cases h with
  | slash a b =>
    simp [keyOf, split_append_slash, split_slash, show leads [] = false from rfl]
  | dot a b =>
    simp [keyOf, split_append_slash,
      show split ('.' :: '/' :: b) = (['.'], (split b).1 :: (split b).2) from rfl,
      show leads ['.'] = false from rfl]

theorem keyOf_ended {a b : List Char} (h : Ended a b) : keyOf a = keyOf b := by
  cases h with
  | slash h =>
    simp [keyOf, split_append_slash, h, show split [] = ([], []) from rfl,
      show leads [] = false from rfl]
  | dot a =>
    simp [keyOf, split_append_slash, show split [] = ([], []) from rfl,
      show split ['.'] = (['.'], []) from rfl, show leads [] = false from rfl,
      show leads ['.'] = false from rfl]

theorem keyOf_eq_of_sameText {a b : List Char} (h : SameText a b) : keyOf a = keyOf b := by
  induction h with
  | rel _ _ h => exact h.elim keyOf_respelled keyOf_ended
  | refl _ => rfl
  | symm _ _ _ ih => exact ih.symm
  | trans _ _ _ _ _ ih ih' => exact ih.trans ih'

/-- **The key of a path decides to which paths it is equal.** -/
theorem key_eq_iff {p q : DatasetPath} : p.key = q.key ↔ p.Equal q := by
  refine ⟨fun h => ?_, keyOf_eq_of_sameText⟩
  have htext : keyOf p.toList = keyOf q.toList := h
  refine EqvGen.trans _ _ _ (sameText_keyText p.toList) ?_
  rw [htext]
  exact EqvGen.symm _ _ (sameText_keyText q.toList)

instance (p q : DatasetPath) : Decidable (p.Equal q) := decidable_of_iff _ key_eq_iff

/-! ## Paths that meet -/

theorem way_ne_nil {parts : List (List Char)} (h : parts ≠ []) : way parts ≠ [] := by
  fun_induction way parts with
  | case1 => exact absurd rfl h
  | case2 last => exact List.cons_ne_nil _ _
  | case3 part rest hrest hleads ih => exact List.cons_ne_nil _ _
  | case4 part rest hrest hleads ih => exact ih hrest

theorem way_cons {part : List Char} {rest : List (List Char)} (h : rest ≠ []) :
    way (part :: rest) = if leads part then part :: way rest else way rest := by
  cases rest with
  | nil => exact absurd rfl h
  | cons next rest => rw [way]; exact List.cons_ne_nil _ _

/-- Its first part leads on, unless it is the only one. -/
theorem way_eq_cons {parts : List (List Char)} {first : List Char} {rest : List (List Char)}
    (h : way parts = first :: rest) : first ∈ parts ∧ (leads first = true ∨ rest = []) := by
  fun_induction way parts with
  | case1 => cases h
  | case2 last =>
    cases h
    exact ⟨List.mem_singleton_self _, .inr rfl⟩
  | case3 part parts hrest hleads ih =>
    cases h
    exact ⟨List.mem_cons_self, .inl hleads⟩
  | case4 part parts hrest hleads ih =>
    obtain ⟨hmem, hfirst⟩ := ih h
    exact ⟨List.mem_cons_of_mem _ hmem, hfirst⟩

/-- A part in front of others that does not lead on is not on the way. -/
theorem way_append {part : List Char} (h : leads part = false) (next : List Char)
    (before rest : List (List Char)) :
    way (before ++ part :: next :: rest) = way (before ++ next :: rest) := by
  induction before with
  | nil =>
    rw [List.nil_append, way_cons (List.cons_ne_nil _ _), h]
    rfl
  | cons first before ih =>
    have hne : ∀ l : List (List Char), before ++ next :: l ≠ [] := fun l => by simp
    rw [List.cons_append, List.cons_append, way_cons (by simp), way_cons (hne _), ih]

theorem sameWay_join (first : List Char) (others : List (List Char)) :
    SameWay (join first others) (join first (way others)) := by
  fun_induction way others generalizing first with
  | case1 => exact .refl _
  | case2 last => exact .refl _
  | case3 part rest hrest hleads ih =>
    rw [join_cons, join_cons]
    exact ih _
  | case4 part rest hrest hleads ih =>
    cases rest with
    | nil => exact absurd rfl hrest
    | cons next rest =>
      exact .trans _ _ _ (.rel _ _ (.inl (respelled_join (by simpa using hleads) first next rest)))
        (ih first)

/-- The text of a place. -/
def placeText : List (List Char) → List Char
  | [] => []
  | first :: others => join first others

theorem sameWay_placeText (text : List Char) : SameWay text (placeText (placeOf text)) := by
  have hsplit := join_split text
  have hslash := slash_notMem_split text
  rw [placeOf]
  generalize split text = parts at hsplit hslash ⊢
  obtain ⟨first, others⟩ := parts
  dsimp only at hsplit hslash ⊢
  subst hsplit
  split
  · next h =>
    obtain ⟨rfl, -⟩ := h
    exact sameWay_join [] others
  · next hstart =>
    by_cases hothers : others = []
    · subst hothers
      exact .refl _
    rw [way_cons hothers]
    split
    · exact sameWay_join first others
    · next hleads =>
      -- What does not lead on is the dot in front.
      obtain rfl | rfl := leads_eq_false.mp (by simpa using hleads)
      · exact absurd ⟨rfl, hothers⟩ hstart
      refine .trans _ _ _ (sameWay_join _ others) ?_
      cases hway : way others with
      | nil => exact absurd hway (way_ne_nil hothers)
      | cons next rest =>
        obtain ⟨hmem, hnext⟩ := way_eq_cons hway
        refine .rel _ _ (.inr (.dot fun hhead => ?_))
        have hnoslash := hslash next (List.mem_cons_of_mem _ hmem)
        cases next with
        | cons c next =>
          obtain rfl : c = '/' := Option.some.inj hhead
          exact hnoslash List.mem_cons_self
        | nil =>
          obtain hnext | rfl := hnext
          · cases hnext
          · cases hhead

/-- Rewriting keeps the place. -/
theorem placeOf_respelled {a b : List Char} (h : Respelled a b) : placeOf a = placeOf b := by
  have hskip : ∀ (part a b : List Char), leads part = false →
      split (part ++ '/' :: b) = (part, (split b).1 :: (split b).2) →
      placeOf (a ++ '/' :: (part ++ '/' :: b)) = placeOf (a ++ '/' :: b) := by
    intro part a b hpart hsplit
    have hway := way_append hpart (split b).1 (split a).2 (split b).2
    have hway' := way_append hpart (split b).1 ((split a).1 :: (split a).2) (split b).2
    simp only [List.cons_append] at hway'
    simp [placeOf, split_append_slash, hsplit, hway, hway']
  cases h with
  | slash a b => exact hskip [] a b rfl (split_slash b)
  | dot a b => exact hskip ['.'] a b rfl rfl

theorem placeOf_fronted {a b : List Char} (h : Fronted a b) : placeOf a = placeOf b := by
  cases h with
  | dot h =>
    have hsplit : split ('.' :: '/' :: b) = (['.'], (split b).1 :: (split b).2) := rfl
    have hstart : ¬ ((split b).1 = [] ∧ (split b).2 ≠ []) := fun hb => h (head?_of_split hb.1 hb.2)
    rw [placeOf, placeOf, hsplit]
    dsimp only
    rw [if_neg hstart, if_neg (by simp), way_cons (List.cons_ne_nil _ _)]
    rfl

theorem placeOf_eq_of_sameWay {a b : List Char} (h : SameWay a b) : placeOf a = placeOf b := by
  induction h with
  | rel _ _ h => exact h.elim placeOf_respelled placeOf_fronted
  | refl _ => rfl
  | symm _ _ _ ih => exact ih.symm
  | trans _ _ _ _ _ ih ih' => exact ih.trans ih'

/-- **The place of a path decides which paths lead to the same file.** -/
theorem place_eq_iff {p q : DatasetPath} : p.place = q.place ↔ p.Meets q := by
  refine ⟨fun h => ?_, placeOf_eq_of_sameWay⟩
  have htext : placeOf p.toList = placeOf q.toList := h
  refine EqvGen.trans _ _ _ (sameWay_placeText p.toList) ?_
  rw [htext]
  exact EqvGen.symm _ _ (sameWay_placeText q.toList)

instance (p q : DatasetPath) : Decidable (p.Meets q) := decidable_of_iff _ place_eq_iff

end DatasetPath

/-! ## Files -/

/-- **A file is read back as it was written, and no other file is touched.** -/
theorem Files.read?_write (f : Files) (path q : DatasetPath) (bytes : List UInt8) :
    (f.write path bytes).read? q = if path.Meets q then some bytes else f.read? q := by
  rw [write, read?, read?]
  by_cases hsame : path.place = q.place
  · rw [if_pos (DatasetPath.place_eq_iff.mp hsame)]
    simp [hsame]
  · have hskip : ∀ e : List (List Char) × List UInt8,
        (!decide (e.1 = path.place) && decide (e.1 = q.place)) = decide (e.1 = q.place) := by
      intro e
      by_cases he : e.1 = q.place
      · simp [he, Ne.symm hsame]
      · simp [he]
    rw [if_neg fun h => hsame (DatasetPath.place_eq_iff.mpr h)]
    simp [hsame, hskip]

end SpatialAudio

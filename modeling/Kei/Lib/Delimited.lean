import Mathlib.Data.List.Basic

/-!
# Kei.Lib.Delimited

Encodings that a reader can cut off the front of what follows.

`Cuts encode after` says that the encoding ends at the same place in two equal
sequences, provided that what comes after it satisfies `after`: it has a fixed
length, it consists of symbols that do not come next, or each of its words has a
terminator.  Fields that are written one after the other are then compared one
by one.
-/

namespace Delimited

variable {α β : Type}

/-- Equal sequences have equal encodings in front, and equal rests. -/
def Cuts (encode : α → List β) (after : List β → Prop) : Prop :=
  ∀ ⦃x y : α⦄ ⦃xs ys : List β⦄, after xs → after ys → encode x ++ xs = encode y ++ ys →
    encode x = encode y ∧ xs = ys

theorem cuts_of_symbols {encode : α → List β} {symbol : β → Bool}
    (h : ∀ x, ∀ b ∈ encode x, symbol b = true) :
    Cuts encode (fun rest => ∀ b ∈ rest.head?, symbol b = false) := by
  have htake (x : α) (rest : List β) (hrest : ∀ b ∈ rest.head?, symbol b = false) :
      (encode x ++ rest).takeWhile symbol = encode x := by
    rw [List.takeWhile_append_of_pos (h x)]
    cases rest with
    | nil => simp
    | cons b rest => simp [hrest b (by simp)]
  intro x y xs ys hxs hys heq
  have hsame : encode x = encode y := by rw [← htake x xs hxs, heq, htake y ys hys]
  rw [hsame] at heq
  exact ⟨hsame, List.append_cancel_left heq⟩

/-- An encoding whose alternatives are told apart by a tag, and are cut off each by itself. -/
theorem Cuts.tagged {encode : α → List β} {after : List β → Prop} (h : Cuts encode after)
    (tag : α → β) : Cuts (fun x => tag x :: encode x) after := by
  intro x y xs ys hxs hys heq
  simp only [List.cons_append, List.cons.injEq] at heq
  obtain ⟨hsame, hrest⟩ := h hxs hys heq.2
  exact ⟨congrArg₂ _ heq.1 hsame, hrest⟩

/-- Words with a terminator that is in none of them. -/
def terminated (stop : β) (words : List (List β)) : List β := words.flatMap (· ++ [stop])

@[simp] theorem terminated_nil (stop : β) : terminated stop [] = [] := rfl

@[simp] theorem terminated_cons (stop : β) (word : List β) (words : List (List β)) :
    terminated stop (word :: words) = word ++ stop :: terminated stop words := by
  simp [terminated]

variable {stop : β}

theorem word_inj {word word' xs ys : List β} (h : stop ∉ word) (h' : stop ∉ word')
    (heq : word ++ stop :: xs = word' ++ stop :: ys) : word = word' ∧ xs = ys := by
  induction word generalizing word' with
  | nil =>
      cases word' with
      | nil => simpa using heq
      | cons b word' =>
          simp only [List.nil_append, List.cons_append, List.cons.injEq] at heq
          simp [heq.1] at h'
  | cons b word ih =>
      cases word' with
      | nil =>
          simp only [List.nil_append, List.cons_append, List.cons.injEq] at heq
          simp [heq.1] at h
      | cons b' word' =>
          simp only [List.cons_append, List.cons.injEq] at heq
          obtain ⟨hsame, hrest⟩ := ih (fun hmem => h (by simp [hmem]))
            (fun hmem => h' (by simp [hmem])) heq.2
          exact ⟨by rw [heq.1, hsame], hrest⟩

variable {words words' : List (List β)}

theorem terminated_inj (h : ∀ w ∈ words, stop ∉ w) (h' : ∀ w ∈ words', stop ∉ w)
    (heq : terminated stop words = terminated stop words') : words = words' := by
  induction words generalizing words' with
  | nil =>
      cases words' with
      | nil => rfl
      | cons word' words' => simp at heq
  | cons word words ih =>
      cases words' with
      | nil => simp at heq
      | cons word' words' =>
          simp only [terminated_cons] at heq
          obtain ⟨hsame, hrest⟩ := word_inj (h word (by simp)) (h' word' (by simp)) heq
          rw [hsame, ih (fun w hw => h w (by simp [hw])) (fun w hw => h' w (by simp [hw])) hrest]

/-! ## words with terminators in them -/

/-- The two agree up to a word that goes on, in the second, with a terminator and what stands
in the first after it. -/
inductive Shifted (stop : β) : List (List β) → List (List β) → Prop where
  | here {word more : List β} {rest rest' : List (List β)}
      (h : terminated stop rest = more ++ stop :: terminated stop rest') :
      Shifted stop (word :: rest) ((word ++ stop :: more) :: rest')
  | later {word : List β} {rest rest' : List (List β)} (h : Shifted stop rest rest') :
      Shifted stop (word :: rest) (word :: rest')

theorem Shifted.terminated_eq (h : Shifted stop words words') :
    terminated stop words = terminated stop words' := by
  induction h with
  | here h => simp [h]
  | later _ ih => simp [ih]

theorem Shifted.ne (h : Shifted stop words words') : words ≠ words' := by
  induction h with
  | here _ => simp
  | later _ ih => simpa using ih

/-- As many words are the same, or one of the two is shifted against the other. -/
theorem terminated_eq_iff (hlen : words.length = words'.length) :
    terminated stop words = terminated stop words' ↔
      words = words' ∨ Shifted stop words words' ∨ Shifted stop words' words := by
  constructor
  · intro h
    induction words generalizing words' with
    | nil => exact .inl (List.length_eq_zero_iff.mp hlen.symm).symm
    | cons word rest ih =>
        cases words' with
        | nil => simp at hlen
        | cons word' rest' =>
            rw [terminated_cons, terminated_cons, List.append_eq_append_iff] at h
            have hrests := @ih rest' (by simpa using hlen)
            obtain ⟨more, hword, hmore⟩ | ⟨more, hword, hmore⟩ := h
            · cases more with
              | nil =>
                  simp only [List.append_nil, List.nil_append, List.cons.injEq, true_and]
                    at hword hmore
                  subst hword
                  exact (hrests hmore).imp (congrArg _) (Or.imp .later .later)
              | cons b more =>
                  simp only [List.cons_append, List.cons.injEq] at hmore
                  obtain ⟨rfl, hmore⟩ := hmore
                  subst hword
                  exact .inr (.inl (.here hmore))
            · cases more with
              | nil =>
                  simp only [List.append_nil, List.nil_append, List.cons.injEq, true_and]
                    at hword hmore
                  subst hword
                  exact (hrests hmore.symm).imp (congrArg _) (Or.imp .later .later)
              | cons b more =>
                  simp only [List.cons_append, List.cons.injEq] at hmore
                  obtain ⟨rfl, hmore⟩ := hmore
                  subst hword
                  exact .inr (.inr (.here hmore))
  · rintro (rfl | h | h)
    · rfl
    · exact h.terminated_eq
    · exact h.terminated_eq.symm

end Delimited

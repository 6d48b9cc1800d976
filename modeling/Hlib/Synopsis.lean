import Mathlib.Data.List.TakeWhile

namespace Synopsis

variable {α : Type*}

/-- The characters that punctuate a synopsis. -/
structure Marks (α : Type*) where
  space : α
  opening : α
  closing : α
  dot : α
  distinct : [space, opening, closing, dot].Nodup

namespace Marks

variable (m : Marks α)

def Plain (name : List α) : Prop := ∀ c ∈ name, c ∉ [m.space, m.opening, m.closing, m.dot]

instance [DecidableEq α] (name : List α) : Decidable (m.Plain name) :=
  inferInstanceAs (Decidable (∀ c ∈ name, c ∉ [m.space, m.opening, m.closing, m.dot]))

/-- How many arguments a synopsis offers: what stands in brackets may be left out, and dots stand for more
of what stands before them. -/
inductive Offers : List α → Nat → Prop
  | nothing : Offers [] 0
  | dots (n : Nat) : Offers [m.dot, m.dot, m.dot] n
  | argument {name rest : List α} {n : Nat} (plain : m.Plain name) (h : Offers rest n) :
    Offers (m.space :: (name ++ rest)) (n + 1)
  | given {name rest : List α} {n : Nat} (plain : m.Plain name) (h : Offers rest n) :
    Offers (m.space :: m.opening :: (name ++ (rest ++ [m.closing]))) (n + 1)
  | omitted {name rest : List α} {n : Nat} (plain : m.Plain name) (h : Offers rest n) :
    Offers (m.space :: m.opening :: (name ++ (rest ++ [m.closing]))) 0

/-- The synopsis of arguments, each a name and whether it is optional. -/
def text (more : Bool) : List (List α × Bool) → List α
  | [] => if more then [m.dot, m.dot, m.dot] else []
  | (name, false) :: arguments => m.space :: (name ++ text more arguments)
  | (name, true) :: arguments => m.space :: m.opening :: (name ++ (text more arguments ++ [m.closing]))

end Marks

/-- The numbers of arguments that their synopsis means. -/
def Meant (more : Bool) : List (List α × Bool) → Nat → Prop
  | [], n => n = 0 ∨ more = true
  | (_, optional) :: _, 0 => optional = true
  | _ :: arguments, n + 1 => Meant more arguments n

/-- The numbers of arguments if all may be missing from the first optional one on. -/
def Accepted (more : Bool) (arguments : List (List α × Bool)) (n : Nat) : Prop :=
  arguments.findIdx Prod.snd ≤ n ∧ (n ≤ arguments.length ∨ more = true)

section Reading

variable {m : Marks α}

theorem Marks.spaced {c : α} (h : c = m.space ∨ c = m.dot) :
    c ∈ [m.space, m.opening, m.closing, m.dot] ∧ c ≠ m.opening := by
  have distinct := m.distinct
  simp only [List.nodup_cons, List.mem_cons, List.not_mem_nil, or_false, not_or] at distinct
  obtain ⟨⟨space, _, _⟩, ⟨_, dot⟩, _⟩ := distinct
  rcases h with rfl | rfl
  · exact ⟨by simp, space⟩
  · exact ⟨by simp, fun same => dot same.symm⟩

theorem Marks.space_ne_dot (m : Marks α) : m.space ≠ m.dot := by
  have distinct := m.distinct
  simp only [List.nodup_cons, List.mem_cons, List.not_mem_nil, or_false, not_or] at distinct
  exact distinct.1.2.2

theorem Marks.Offers.head {text : List α} {n : Nat} (h : m.Offers text n) :
    ∀ c ∈ text.head?, c = m.space ∨ c = m.dot := by
  cases h with
  | nothing => exact nofun
  | dots => rintro c ⟨⟩; exact Or.inr rfl
  | argument => rintro c ⟨⟩; exact Or.inl rfl
  | given => rintro c ⟨⟩; exact Or.inl rfl
  | omitted => rintro c ⟨⟩; exact Or.inl rfl

theorem Marks.text_head (more : Bool) (arguments : List (List α × Bool)) :
    ∀ c ∈ (m.text more arguments).head?, c = m.space ∨ c = m.dot := by
  match arguments with
  | [] =>
    cases more with
    | false => exact nofun
    | true => rintro c ⟨⟩; exact Or.inr rfl
  | (_, false) :: _ => rintro c ⟨⟩; exact Or.inl rfl
  | (_, true) :: _ => rintro c ⟨⟩; exact Or.inl rfl

/-- A plain name ends where a text begins that is punctuated. -/
theorem Marks.Plain.cut {name name' rest rest' : List α} (plain : m.Plain name) (plain' : m.Plain name')
    (stop : ∀ c ∈ rest.head?, c ∈ [m.space, m.opening, m.closing, m.dot])
    (stop' : ∀ c ∈ rest'.head?, c ∈ [m.space, m.opening, m.closing, m.dot])
    (same : name ++ rest = name' ++ rest') : name = name' ∧ rest = rest' := by
  induction name generalizing name' with
  | nil =>
    cases name' with
    | nil => exact ⟨rfl, same⟩
    | cons c name' =>
      have mark := stop c (by rw [← List.nil_append rest, same]; rfl)
      exact absurd mark (plain' c List.mem_cons_self)
  | cons c name ih =>
    cases name' with
    | nil =>
      have mark := stop' c (by rw [← List.nil_append rest', ← same]; rfl)
      exact absurd mark (plain c List.mem_cons_self)
    | cons c' name' =>
      rw [List.cons_append, List.cons_append, List.cons.injEq] at same
      obtain ⟨rfl, same⟩ := same
      have plain := fun d hd => plain d (List.mem_cons_of_mem c hd)
      have plain' := fun d hd => plain' d (List.mem_cons_of_mem c hd)
      obtain ⟨rfl, rest⟩ := ih plain plain' same
      exact ⟨rfl, rest⟩

theorem Marks.Plain.opens {name rest : List α} (plain : m.Plain name)
    (stop : ∀ c ∈ rest.head?, c = m.space ∨ c = m.dot) : (name ++ rest).head? ≠ some m.opening := by
  cases name with
  | nil => exact fun opened => (Marks.spaced (stop _ opened)).2 rfl
  | cons c name =>
    rintro ⟨⟩
    exact plain _ List.mem_cons_self (by simp)

theorem Marks.closed {rest : List α} (h : ∀ c ∈ rest.head?, c = m.space ∨ c = m.dot) :
    ∀ c ∈ (rest ++ [m.closing]).head?, c ∈ [m.space, m.opening, m.closing, m.dot] := by
  cases rest with
  | nil =>
    rintro c ⟨⟩
    simp
  | cons c rest => exact fun d hd => (Marks.spaced (h d hd)).1

theorem Marks.offers_argument {name rest : List α} {n : Nat} (plain : m.Plain name)
    (stop : ∀ c ∈ rest.head?, c = m.space ∨ c = m.dot) (h : m.Offers (m.space :: (name ++ rest)) n) :
    ∃ k, n = k + 1 ∧ m.Offers rest k := by
  have marked : ∀ c ∈ rest.head?, c ∈ [m.space, m.opening, m.closing, m.dot] :=
    fun c hc => (Marks.spaced (stop c hc)).1
  have closed := plain.opens stop
  generalize whole : m.space :: (name ++ rest) = text at h
  cases h with
  | nothing => cases whole
  | dots => exact absurd (List.cons.inj whole).1 m.space_ne_dot
  | argument plain' h =>
    rw [List.cons.injEq] at whole
    obtain ⟨rfl, rfl⟩ := plain.cut plain' marked (fun c hc => (Marks.spaced (h.head c hc)).1) whole.2
    exact ⟨_, rfl, h⟩
  | given =>
    rw [List.cons.injEq] at whole
    rw [whole.2] at closed
    exact absurd rfl closed
  | omitted =>
    rw [List.cons.injEq] at whole
    rw [whole.2] at closed
    exact absurd rfl closed

theorem Marks.offers_optional {name rest : List α} {n : Nat} (plain : m.Plain name)
    (stop : ∀ c ∈ rest.head?, c = m.space ∨ c = m.dot)
    (h : m.Offers (m.space :: m.opening :: (name ++ (rest ++ [m.closing]))) n) :
    n = 0 ∨ ∃ k, n = k + 1 ∧ m.Offers rest k := by
  have same {name' rest' : List α} {k : Nat} (plain' : m.Plain name') (h : m.Offers rest' k)
      (whole : name ++ (rest ++ [m.closing]) = name' ++ (rest' ++ [m.closing])) : rest = rest' :=
    List.append_cancel_right (plain.cut plain' (Marks.closed stop) (Marks.closed h.head) whole).2
  generalize whole : m.space :: m.opening :: (name ++ (rest ++ [m.closing])) = text at h
  cases h with
  | nothing => cases whole
  | dots => exact absurd (List.cons.inj whole).1 m.space_ne_dot
  | argument plain' h =>
    rw [List.cons.injEq] at whole
    have closed := plain'.opens h.head
    rw [← whole.2] at closed
    exact absurd rfl closed
  | given plain' h =>
    simp only [List.cons.injEq, true_and] at whole
    exact Or.inr ⟨_, rfl, same plain' h whole ▸ h⟩
  | omitted => exact Or.inl rfl

theorem Marks.offers_all (more : Bool) {arguments : List (List α × Bool)}
    (plain : ∀ argument ∈ arguments, m.Plain argument.1) :
    m.Offers (m.text more arguments) arguments.length := by
  induction arguments with
  | nil =>
    cases more with
    | false => exact .nothing
    | true => exact .dots 0
  | cons argument arguments ih =>
    obtain ⟨name, optional⟩ := argument
    have first := plain _ List.mem_cons_self
    have rest := ih fun argument h => plain argument (List.mem_cons_of_mem _ h)
    cases optional with
    | false => exact .argument first rest
    | true => exact .given first rest

/-- A synopsis is read as it is meant. -/
theorem Marks.offers_text (more : Bool) {arguments : List (List α × Bool)}
    (plain : ∀ argument ∈ arguments, m.Plain argument.1) (n : Nat) :
    m.Offers (m.text more arguments) n ↔ Meant more arguments n := by
  induction arguments generalizing n with
  | nil =>
    cases more with
    | false =>
      constructor
      · intro h
        generalize whole : m.text false [] = text at h
        cases h with
        | nothing => exact Or.inl rfl
        | dots => cases whole
        | argument => cases whole
        | given => cases whole
        | omitted => cases whole
      · rintro (rfl | more)
        · exact .nothing
        · cases more
    | true => exact iff_of_true (.dots n) (Or.inr rfl)
  | cons argument arguments ih =>
    obtain ⟨name, optional⟩ := argument
    have first : m.Plain name := plain _ List.mem_cons_self
    have others := fun argument h => plain argument (List.mem_cons_of_mem _ h)
    have stop := Marks.text_head (m := m) more arguments
    cases optional with
    | false =>
      constructor
      · intro h
        obtain ⟨k, rfl, rest⟩ := Marks.offers_argument first stop h
        exact (ih others k).mp rest
      · intro h
        cases n with
        | zero => cases h
        | succ n => exact .argument first ((ih others n).mpr h)
    | true =>
      constructor
      · intro h
        rcases Marks.offers_optional first stop h with rfl | ⟨k, rfl, rest⟩
        · rfl
        · exact (ih others k).mp rest
      · intro h
        cases n with
        | zero => exact .omitted first (Marks.offers_all more others)
        | succ n => exact .given first ((ih others n).mpr h)

end Reading

section Numbers

theorem meant_iff (more : Bool) (arguments : List (List α × Bool)) (n : Nat) :
    Meant more arguments n ↔
      (∃ argument, arguments[n]? = some argument ∧ argument.2 = true) ∨ n = arguments.length ∨
        (arguments.length < n ∧ more = true) := by
  induction arguments generalizing n with
  | nil =>
    cases more <;> simp [Meant]
    omega
  | cons argument arguments ih =>
    obtain ⟨name, optional⟩ := argument
    cases n with
    | zero => simp [Meant]
    | succ n =>
      change Meant more arguments n ↔ _
      rw [ih]
      simp

theorem meant_inside {more : Bool} {arguments : List (List α × Bool)} {n : Nat} (inside : n < arguments.length) :
    Meant more arguments n ↔ arguments[n].2 = true := by
  rw [meant_iff, List.getElem?_eq_getElem inside]
  constructor
  · rintro (⟨argument, here, optional⟩ | last | ⟨beyond, _⟩)
    · cases here
      exact optional
    · omega
    · omega
  · exact fun optional => Or.inl ⟨_, rfl, optional⟩

theorem meant_outside {more : Bool} {arguments : List (List α × Bool)} {n : Nat} (outside : arguments.length ≤ n) :
    Meant more arguments n ↔ n ≤ arguments.length ∨ more = true := by
  rw [meant_iff, List.getElem?_eq_none outside]
  constructor
  · rintro (⟨_, none, _⟩ | last | ⟨_, more⟩)
    · cases none
    · exact Or.inl last.le
    · exact Or.inr more
  · rintro (within | more)
    · exact Or.inr (Or.inl (Nat.le_antisymm within outside))
    · rcases Nat.eq_or_lt_of_le outside with last | beyond
      · exact Or.inr (Or.inl last.symm)
      · exact Or.inr (Or.inr ⟨beyond, more⟩)

/-- A synopsis means what is accepted if no argument that is required stands behind an optional one. -/
theorem meant_accepted_iff (more : Bool) (arguments : List (List α × Bool)) :
    (∀ n, Meant more arguments n ↔ Accepted more arguments n) ↔
      ∀ argument ∈ arguments.drop (arguments.findIdx Prod.snd), argument.2 = true := by
  constructor
  · intro same argument behind
    obtain ⟨i, hi, found⟩ := List.mem_iff_getElem.mp behind
    rw [List.getElem_drop] at found
    rw [List.length_drop] at hi
    have inside : arguments.findIdx Prod.snd + i < arguments.length := by omega
    have accepted : Accepted more arguments (arguments.findIdx Prod.snd + i) :=
      ⟨Nat.le_add_right _ _, Or.inl inside.le⟩
    rw [← found]
    exact (meant_inside inside).mp ((same _).mpr accepted)
  · intro all n
    have most : arguments.findIdx Prod.snd ≤ arguments.length := List.findIdx_le_length
    rcases Nat.lt_or_ge n arguments.length with inside | outside
    · rw [meant_inside inside]
      constructor
      · intro optional
        refine ⟨?_, Or.inl inside.le⟩
        by_contra before
        have required : arguments[n].2 = false := List.not_of_lt_findIdx (p := Prod.snd) (by omega)
        rw [required] at optional
        cases optional
      · rintro ⟨behind, _⟩
        refine all _ (List.mem_iff_getElem.mpr ⟨n - arguments.findIdx Prod.snd, ?_, ?_⟩)
        · rw [List.length_drop]
          omega
        · rw [List.getElem_drop]
          congr 1
          omega
    · rw [meant_outside outside]
      exact (and_iff_right (most.trans outside)).symm

end Numbers

end Synopsis

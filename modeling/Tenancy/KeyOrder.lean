/-!
# Orders of keys

Maps, sets and pages run through their keys in ascending order.  `KeyOrder` is the order that they
use: strict, linear, and decided by a test.

* Texts are ordered by the code points of their characters, which is also the order of their UTF-8
  forms byte by byte.
* Pairs and lists are ordered by their first difference; nothing comes before something.
* `KeyOrder.ofKey` orders a type by a key that tells its elements apart.
-/

namespace Tenancy

/-- A strict linear order. -/
class KeyOrder (κ : Type) where
  before : κ → κ → Bool
  before_self : ∀ a, before a a = false
  before_trans : ∀ a b c, before a b = true → before b c = true → before a c = true
  eq_of_not_before : ∀ a b, before a b = false → before b a = false → a = b

namespace KeyOrder

variable {κ ι : Type}

instance : KeyOrder Nat where
  before a b := decide (a < b)
  before_self a := by simp
  before_trans a b c hab hbc := by simp at *; omega
  eq_of_not_before a b hab hba := by simp at *; omega

instance : KeyOrder Int where
  before a b := decide (a < b)
  before_self a := by simp
  before_trans a b c hab hbc := by simp at *; omega
  eq_of_not_before a b hab hba := by simp at *; omega

/-- The order by a key that tells all elements apart. -/
@[reducible]
def ofKey [KeyOrder κ] (key : ι → κ) (hKey : ∀ a b, key a = key b → a = b) : KeyOrder ι where
  before a b := before (key a) (key b)
  before_self a := before_self (key a)
  before_trans a b c := before_trans (key a) (key b) (key c)
  eq_of_not_before a b hab hba := hKey a b (eq_of_not_before _ _ hab hba)

section Pairs

variable [KeyOrder κ] [KeyOrder ι]

/-- The first parts decide, and the second ones if neither of the first comes before the other. -/
def pairBefore (p q : κ × ι) : Bool :=
  before p.1 q.1 || !before q.1 p.1 && before p.2 q.2

theorem pairBefore_iff {p q : κ × ι} : pairBefore p q = true ↔
    before p.1 q.1 = true ∨ p.1 = q.1 ∧ before p.2 q.2 = true := by
  constructor
  · intro hBefore
    simp only [pairBefore, Bool.or_eq_true, Bool.and_eq_true, Bool.not_eq_true'] at hBefore
    rcases hBefore with hFirst | ⟨hNot, hSecond⟩
    · exact .inl hFirst
    · cases hFirst : before p.1 q.1 with
      | true => exact .inl rfl
      | false => exact .inr ⟨eq_of_not_before _ _ hFirst hNot, hSecond⟩
  · rintro (hFirst | ⟨hEq, hSecond⟩)
    · simp [pairBefore, hFirst]
    · simp [pairBefore, hEq, before_self, hSecond]

instance : KeyOrder (κ × ι) where
  before := pairBefore
  before_self p := by simp [pairBefore, before_self]
  before_trans p q r hpq hqr := by
    rw [pairBefore_iff] at *
    rcases hpq with hpq | ⟨hpq, hpq'⟩ <;> rcases hqr with hqr | ⟨hqr, hqr'⟩
    · exact .inl (before_trans _ _ _ hpq hqr)
    · exact .inl (hqr ▸ hpq)
    · exact .inl (hpq ▸ hqr)
    · exact .inr ⟨hpq.trans hqr, before_trans _ _ _ hpq' hqr'⟩
  eq_of_not_before p q hpq hqp := by
    rw [← Bool.not_eq_true, pairBefore_iff, not_or] at *
    have hFirst : p.1 = q.1 :=
      eq_of_not_before _ _ (Bool.eq_false_iff.2 hpq.1) (Bool.eq_false_iff.2 hqp.1)
    have hSecond : p.2 = q.2 := eq_of_not_before _ _
      (Bool.eq_false_iff.2 fun h => hpq.2 ⟨hFirst, h⟩)
      (Bool.eq_false_iff.2 fun h => hqp.2 ⟨hFirst.symm, h⟩)
    exact Prod.ext hFirst hSecond

end Pairs

section Lists

variable [KeyOrder κ]

/-- The first difference decides; the empty list comes before all others. -/
def listBefore : List κ → List κ → Bool
  | _, [] => false
  | [], _ :: _ => true
  | a :: as, b :: bs => before a b || !before b a && listBefore as bs

theorem listBefore_cons {a b : κ} {as bs : List κ} : listBefore (a :: as) (b :: bs) = true ↔
    before a b = true ∨ a = b ∧ listBefore as bs = true := by
  constructor
  · intro hBefore
    simp only [listBefore, Bool.or_eq_true, Bool.and_eq_true, Bool.not_eq_true'] at hBefore
    rcases hBefore with hHead | ⟨hNot, hTail⟩
    · exact .inl hHead
    · cases hHead : before a b with
      | true => exact .inl rfl
      | false => exact .inr ⟨eq_of_not_before _ _ hHead hNot, hTail⟩
  · rintro (hHead | ⟨rfl, hTail⟩)
    · simp [listBefore, hHead]
    · simp [listBefore, before_self, hTail]

theorem listBefore_self (as : List κ) : listBefore as as = false := by
  induction as with
  | nil => rfl
  | cons a as ih => simp [listBefore, before_self, ih]

theorem listBefore_trans {as bs cs : List κ} (hab : listBefore as bs = true)
    (hbc : listBefore bs cs = true) : listBefore as cs = true := by
  induction as generalizing bs cs with
  | nil =>
    cases cs with
    | nil => cases bs <;> simp [listBefore] at hbc
    | cons c cs => rfl
  | cons a as ih =>
    cases bs with
    | nil => simp [listBefore] at hab
    | cons b bs =>
      cases cs with
      | nil => simp [listBefore] at hbc
      | cons c cs =>
        rw [listBefore_cons] at *
        rcases hab with hab | ⟨hab, hab'⟩ <;> rcases hbc with hbc | ⟨hbc, hbc'⟩
        · exact .inl (before_trans _ _ _ hab hbc)
        · exact .inl (hbc ▸ hab)
        · exact .inl (hab ▸ hbc)
        · exact .inr ⟨hab.trans hbc, ih hab' hbc'⟩

theorem eq_of_not_listBefore {as bs : List κ} (hab : listBefore as bs = false)
    (hba : listBefore bs as = false) : as = bs := by
  induction as generalizing bs with
  | nil =>
    cases bs with
    | nil => rfl
    | cons b bs => simp [listBefore] at hab
  | cons a as ih =>
    cases bs with
    | nil => simp [listBefore] at hba
    | cons b bs =>
      rw [← Bool.not_eq_true, listBefore_cons, not_or] at *
      have hHead : a = b :=
        eq_of_not_before _ _ (Bool.eq_false_iff.2 hab.1) (Bool.eq_false_iff.2 hba.1)
      have hTail : as = bs := ih
        (Bool.eq_false_iff.2 fun h => hab.2 ⟨hHead, h⟩)
        (Bool.eq_false_iff.2 fun h => hba.2 ⟨hHead.symm, h⟩)
      rw [hHead, hTail]

instance : KeyOrder (List κ) where
  before := listBefore
  before_self := listBefore_self
  before_trans _ _ _ := listBefore_trans
  eq_of_not_before _ _ := eq_of_not_listBefore

instance : KeyOrder (Option κ) := .ofKey Option.toList fun a b hKey => by
  cases a <;> cases b <;> simp_all

end Lists

instance : KeyOrder Char := .ofKey Char.toNat fun _ _ => Char.toNat_inj.1

instance : KeyOrder String := .ofKey String.toList fun _ _ => String.toList_inj.1

end KeyOrder

/-- The texts in ascending order. -/
def sortTexts (texts : List String) : List String :=
  texts.mergeSort fun a b => !KeyOrder.before b a

end Tenancy

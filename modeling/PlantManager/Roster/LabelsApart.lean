import PlantManager.Roster.Labels

/-! # Labels are told apart whatever their case

The labels of employees with distinct ids differ even when their case is ignored
(`Roster.rosterNames_apart`).
-/

namespace PlantManager.Roster

/-- A character of ASCII that is no letter. -/
def isSign (char : Char) : Bool := char.toNat < 128 && !char.isAlpha

/-- How the characters of a text are folded so that their case is ignored. A sign folds to itself,
and nothing else folds to a text with the sign. -/
structure CaseFolding where
  fold : Char → List Char
  nonempty : ∀ char, fold char ≠ []
  fixed : ∀ {char}, isSign char → fold char = [char]
  only : ∀ {char sign}, isSign sign → sign ∈ fold char → char = sign

def CaseFolding.casefold (folding : CaseFolding) (text : List Char) : List Char :=
  text.flatMap folding.fold

/-- The labels of employees with these ids and names. -/
def rosterNames (casefold : List Char → List Char) (employees : List (ℤ × Option String)) :
    Labels :=
  rosterLabels casefold (employees.map fun employee =>
    (employee.1, words (employee.2.getD "").toList))

/-- No label that collides can take a letter more. -/
def Settled (casefold : List Char → List Char) (named : Named) (lengths : ℤ → ℕ) : Prop :=
  ∀ employeeId ∈ colliding casefold (baseLabels named lengths),
    ¬canLengthen named lengths employeeId

namespace CaseFolding

variable {folding : CaseFolding}

theorem isSign_of_isNumeric {char : Char} (numeric : isNumeric char) : isSign char := by
  rcases numeric with digit | rfl
  · rw [Char.isDigit, Bool.and_eq_true, decide_eq_true_eq, decide_eq_true_eq] at digit
    have high : char.toNat ≤ 57 := digit.2
    have letter : char.isAlpha = false := by
      rw [Char.isAlpha, Char.isUpper, Char.isLower, Bool.or_eq_false_iff]
      constructor
      · rw [decide_eq_false_iff_not]
        rintro ⟨upper, -⟩
        have : 65 ≤ char.toNat := upper
        omega
      · rw [Bool.and_eq_false_imp]
        intro lower
        have : 97 ≤ char.toNat := of_decide_eq_true lower
        omega
    rw [isSign, letter, Bool.not_false, Bool.and_true]
    exact decide_eq_true (by omega)
  · decide

theorem casefold_append (text more : List Char) :
    folding.casefold (text ++ more) = folding.casefold text ++ folding.casefold more :=
  List.flatMap_append

/-- A text of signs folds to itself. -/
theorem casefold_signs {text : List Char} (signs : ∀ char ∈ text, isSign char) :
    folding.casefold text = text := by
  induction text with
  | nil => rfl
  | cons char rest ih =>
      rw [casefold, List.flatMap_cons, folding.fixed (signs char List.mem_cons_self)]
      exact congrArg (char :: ·) (ih fun other member => signs other (List.mem_cons_of_mem _ member))

theorem casefold_numbered (label : List Char) (employeeId : ℤ) :
    folding.casefold (label ++ ' ' :: '#' :: (Int.repr employeeId).toList) =
      folding.casefold label ++ ' ' :: '#' :: (Int.repr employeeId).toList := by
  rw [casefold_append]
  refine congrArg (folding.casefold label ++ ·) (casefold_signs fun char member => ?_)
  rcases List.mem_cons.mp member with rfl | later
  · decide
  · rcases List.mem_cons.mp later with rfl | digit
    · decide
    · exact isSign_of_isNumeric (isNumeric_of_mem_repr digit)

/-- Folding adds no blank, and no number at the end. -/
theorem casefold_plain {label : List Char} (plain : Plain label) :
    Plain (folding.casefold label) := by
  rcases plain with missing | ⟨start, last, rfl, nonnumeric⟩
  · refine .inl fun blank => ?_
    obtain ⟨char, member, inside⟩ := List.mem_flatMap.mp blank
    obtain rfl := folding.only (by decide) inside
    exact missing member
  · right
    have split := (List.dropLast_append_getLast (folding.nonempty last)).symm
    refine ⟨folding.casefold start ++ (folding.fold last).dropLast,
      (folding.fold last).getLast (folding.nonempty last), ?_, fun numeric => ?_⟩
    · rw [List.append_assoc, ← split, casefold_append]
      exact congrArg (folding.casefold start ++ ·) (List.flatMap_singleton _ _)
    · have sign := folding.only (isSign_of_isNumeric numeric) (List.getLast_mem _)
      exact nonnumeric (sign ▸ numeric)

theorem toLower_of_isSign {char : Char} (sign : isSign char.toLower) : char.toLower = char := by
  by_cases upper : char.val ≥ 'A'.val ∧ char.val ≤ 'Z'.val
  · have letters : ∀ code < 91, 65 ≤ code → ¬isSign (Char.ofNat code).toLower := by decide
    have low : 65 ≤ char.toNat := upper.1
    have high : char.toNat ≤ 90 := upper.2
    refine absurd ?_ (letters char.toNat (by omega) low)
    rwa [Char.ofNat_toNat]
  · rw [Char.toLower, dif_neg upper]

/-- The letters of ASCII folded, and every other character as it is. -/
def ascii : CaseFolding where
  fold char := [char.toLower]
  nonempty _ := List.cons_ne_nil _ _
  fixed := by
    intro char sign
    rw [Char.toLower, dif_neg]
    rintro upper
    rw [isSign, Char.isAlpha, Char.isUpper, decide_eq_true upper, Bool.true_or, Bool.not_true,
      Bool.and_false] at sign
    cases sign
  only := by
    intro char sign isSign found
    obtain rfl := List.mem_singleton.mp found
    exact (toLower_of_isSign isSign).symm

end CaseFolding

/-- Every employee has one label, the loop that lengthens them ends, and no two employees have
labels that are equal but for their case. -/
theorem rosterNames_apart (folding : CaseFolding) (employees : List (ℤ × Option String))
    (distinct : (employees.map Prod.fst).Nodup) :
    let labels := rosterNames folding.casefold employees
    let named := employees.map fun employee => (employee.1, words (employee.2.getD "").toList)
    labels.map Prod.fst = employees.map Prod.fst ∧ (labels.map Prod.fst).Nodup ∧
      Settled folding.casefold named
        (lengthen folding.casefold named (rounds named) fun _ => 1) ∧
      labels.Pairwise fun first second =>
        folding.casefold first.2 ≠ folding.casefold second.2 := by
  intro labels named
  have ids : labels.map Prod.fst = employees.map Prod.fst := by
    rw [show labels = rosterLabels folding.casefold named from rfl, map_fst_rosterLabels,
      List.map_map]
    rfl
  have blankless : ∀ entry ∈ named, ∀ part ∈ entry.2, ' ' ∉ part := by
    intro entry member part inside
    obtain ⟨employee, -, rfl⟩ := List.mem_map.mp member
    exact space_not_mem_words inside
  refine ⟨ids, ids ▸ distinct, lengthen_done named, ?_⟩
  have apart := List.pairwise_map.mp (ids ▸ distinct : (labels.map Prod.fst).Nodup)
  refine apart.imp_of_mem fun {first second} one two different same => different ?_
  refine rosterLabels_apart blankless (fun _ _ equal => equal) ?_ ?_ one two same
  · intro label other one two equal
    rw [CaseFolding.casefold_numbered, CaseFolding.casefold_numbered] at equal
    exact numbered_inj equal
  · intro label plain other employeeId
    rw [CaseFolding.casefold_numbered]
    exact (CaseFolding.casefold_plain plain).ne_numbered _ _

/-- Two people of one name, and one whose name looks like a label that they could get. -/
theorem rosterNames_apart_namesakes :
    let employees : List (ℤ × Option String) :=
      [(1, some "Ana Lee"), (2, some "ANA LEE"), (3, some "Ana Lee. #2"), (4, none)]
    let labels := rosterNames CaseFolding.ascii.casefold employees
    labels.map Prod.fst = [1, 2, 3, 4] ∧ labels.Pairwise fun first second =>
      CaseFolding.ascii.casefold first.2 ≠ CaseFolding.ascii.casefold second.2 := by
  intro employees labels
  obtain ⟨ids, -, -, apart⟩ := rosterNames_apart CaseFolding.ascii employees (by decide)
  exact ⟨ids, apart⟩

end PlantManager.Roster

import PlantManager.Attendance.Projection

/-! # The labels of a roster

A label is the first name and the initial of the second; letters and initials are added where
labels collide, and the id of the employee at last (`Roster.rosterLabels`). The labels
of a roster are distinct (`Roster.rosterLabels_injective`), and the loop that adds the
letters ends (`Roster.lengthen_done`).
-/

namespace PlantManager.Roster

open Mapping

/-- The words of a text. -/
def words (text : List Char) : List (List Char) :=
  (text.splitOnP Attendance.Projection.isSpace).filter fun word => word ≠ []

/-- What the labels are made from: the employees in their order, with the words of their names. -/
abbrev Named := List (ℤ × List (List Char))

/-- The letters that a label can take from the second name. -/
def surnameLength : List (List Char) → ℕ
  | _ :: surname :: _ => surname.length
  | _ => 0

def baseLabel (length : ℕ) : List (List Char) → List Char
  | first :: surname :: _ => first ++ ' ' :: surname.take length ++ ['.']
  | parts => parts.flatten

abbrev Labels := List (ℤ × List Char)

/-- The employees whose labels are equal but for their case, group by group. -/
def collisionGroups (casefold : List Char → List Char) (labels : Labels) : List (List ℤ) :=
  ((Dictionary.groupBy (fun entry => casefold entry.2) labels).values.map
    (·.map Prod.fst)).filter fun group => 1 < group.length

/-- The employees whose labels collide. -/
def colliding (casefold : List Char → List Char) (labels : Labels) : List ℤ :=
  (collisionGroups casefold labels).flatten

def baseLabels (named : Named) (lengths : ℤ → ℕ) : Labels :=
  named.map fun entry => (entry.1, baseLabel (lengths entry.1) entry.2)

def partsOf (named : Named) (employeeId : ℤ) : List (List Char) :=
  (named.lookup employeeId).getD []

/-- Whether a label has a letter more to take. -/
def canLengthen (named : Named) (lengths : ℤ → ℕ) (employeeId : ℤ) : Bool :=
  lengths employeeId < surnameLength (partsOf named employeeId)

/-- Take a letter more for each of the employees that has one. -/
def lengthenAll (named : Named) (lengths : ℤ → ℕ) (employeeIds : List ℤ) : ℤ → ℕ :=
  employeeIds.foldl (fun lengths employeeId =>
    if canLengthen named lengths employeeId then
      Function.update lengths employeeId (lengths employeeId + 1)
    else lengths) lengths

/-- Add letters until no label that collides can take one more. -/
def lengthen (casefold : List Char → List Char) (named : Named) : ℕ → (ℤ → ℕ) → ℤ → ℕ
  | 0, lengths => lengths
  | fuel + 1, lengths =>
      let group := colliding casefold (baseLabels named lengths)
      if group.any (canLengthen named lengths) then
        lengthen casefold named fuel (lengthenAll named lengths group)
      else lengths

/-- The letters of all second names are enough rounds. -/
def rounds (named : Named) : ℕ :=
  (named.map fun entry => surnameLength (partsOf named entry.1)).sum + 1

/-- The initials of the names after the second. -/
def laterInitials (parts : List (List Char)) : List Char :=
  [' '].intercalate (((parts.drop 2).filter (· ≠ [])).map fun part => part.take 1 ++ ['.'])

def fullLabel (length : ℕ) (parts : List (List Char)) : List Char :=
  match parts with
  | first :: surname :: _ :: _ =>
      first ++ ' ' :: surname.take length ++ ' ' :: laterInitials parts
  | _ => baseLabel length parts

/-- The labels of a roster. -/
def rosterLabels (casefold : List Char → List Char) (named : Named) : Labels :=
  let lengths := lengthen casefold named (rounds named) fun _ => 1
  let based := baseLabels named lengths
  let initialled := named.map fun entry =>
    if entry.1 ∈ colliding casefold based then (entry.1, fullLabel (lengths entry.1) entry.2)
    else (entry.1, baseLabel (lengths entry.1) entry.2)
  initialled.map fun entry =>
    if entry.1 ∈ colliding casefold initialled then
      (entry.1, entry.2 ++ ' ' :: '#' :: (Int.repr entry.1).toList)
    else entry

/-! ## Words and numbers -/

theorem space_not_mem_of_mem_splitOnP {text word : List Char}
    (member : word ∈ text.splitOnP Attendance.Projection.isSpace) : ' ' ∉ word := by
  induction text generalizing word with
  | nil =>
      rw [List.splitOnP_nil, List.mem_singleton] at member
      subst member
      exact List.not_mem_nil
  | cons char rest ih =>
      rw [List.splitOnP_cons_eq_if_modifyHead] at member
      split at member
      · rcases List.mem_cons.mp member with rfl | later
        · exact List.not_mem_nil
        · exact ih later
      · next letter =>
          cases found : rest.splitOnP Attendance.Projection.isSpace with
          | nil => exact absurd found (List.splitOnP_ne_nil _ _)
          | cons first others =>
              rw [found] at member ih
              rcases List.mem_cons.mp member with rfl | later
              · intro space
                rcases List.mem_cons.mp space with same | inside
                · subst same
                  exact letter (by decide)
                · exact ih List.mem_cons_self inside
              · exact ih (List.mem_cons_of_mem _ later)

/-- Words have no white space. -/
theorem space_not_mem_words {text word : List Char} (member : word ∈ words text) : ' ' ∉ word :=
  space_not_mem_of_mem_splitOnP (List.mem_of_mem_filter member)

/-- The characters that a number is written with. -/
def isNumeric (char : Char) : Prop := char.isDigit ∨ char = '-'

variable {employeeId : ℤ}

theorem isNumeric_of_mem_repr {char : Char} (member : char ∈ (Int.repr employeeId).toList) :
    isNumeric char := by
  have digit : ∀ {number : ℕ}, char ∈ (Nat.repr number).toList → char.isDigit := by
    intro number inside
    rw [Nat.toList_repr] at inside
    exact Nat.isDigit_of_mem_toDigits (by decide) (by decide) inside
  cases employeeId with
  | ofNat number => exact .inl (digit member)
  | negSucc number =>
      change char ∈ ("-" ++ Nat.repr (number + 1)).toList at member
      rw [String.toList_append] at member
      rcases List.mem_append.mp member with sign | inside
      · exact .inr (List.mem_singleton.mp sign)
      · exact .inl (digit inside)

theorem repr_inj {one two : ℤ} (same : Int.repr one = Int.repr two) : one = two := by
  have number : ∀ {first second : ℕ}, Nat.repr first = Nat.repr second → first = second := by
    intro first second equal
    have digits := congrArg (fun text => Nat.ofDigitChars 10 text.toList 0) equal
    simpa only [Nat.toList_repr, Nat.ofDigitChars_ten_toDigits] using digits
  have unsigned : ∀ {number other : ℕ}, Nat.repr number ≠ "-" ++ Nat.repr other := by
    intro number other equal
    have sign : '-' ∈ (Nat.repr number).toList := by
      rw [equal, String.toList_append]
      exact List.mem_append_left _ (by decide)
    rw [Nat.toList_repr] at sign
    exact absurd (Nat.isDigit_of_mem_toDigits (by decide) (by decide) sign) (by decide)
  cases one with
  | ofNat first =>
      cases two with
      | ofNat second => exact congrArg Int.ofNat (number same)
      | negSucc second => exact absurd same unsigned
  | negSucc first =>
      cases two with
      | ofNat second => exact absurd same.symm unsigned
      | negSucc second =>
          have later := number (String.append_right_inj _ |>.mp same)
          rw [Nat.succ.inj later]

theorem repr_ne_nil (employeeId : ℤ) : (Int.repr employeeId).toList ≠ [] := by
  cases employeeId with
  | ofNat number =>
      change (Nat.repr number).toList ≠ []
      rw [Nat.toList_repr]
      exact Nat.toDigits_ne_nil
  | negSucc number =>
      change ("-" ++ Nat.repr (number + 1)).toList ≠ []
      rw [String.toList_append]
      exact List.append_ne_nil_of_left_ne_nil (by decide) _

/-! ## Labels without a number -/

/-- A label of one word, or one that does not end in a number. -/
def Plain (label : List Char) : Prop :=
  ' ' ∉ label ∨ ∃ start last, label = start ++ [last] ∧ ¬ isNumeric last

theorem Plain.ne_numbered {label : List Char} (plain : Plain label) (other : List Char)
    (employeeId : ℤ) : label ≠ other ++ ' ' :: '#' :: (Int.repr employeeId).toList := by
  rintro rfl
  rcases plain with missing | ⟨start, last, same, nonnumeric⟩
  · exact missing (List.mem_append_right _ List.mem_cons_self)
  · have ends := congrArg List.getLast? same
    rw [List.getLast?_append_of_ne_nil _ (List.cons_ne_nil _ _), List.getLast?_concat] at ends
    have tail : (' ' :: '#' :: (Int.repr employeeId).toList).getLast? =
        (Int.repr employeeId).toList.getLast? :=
      List.getLast?_append_of_ne_nil [' ', '#'] (repr_ne_nil employeeId)
    rw [tail] at ends
    exact nonnumeric (isNumeric_of_mem_repr (List.mem_of_getLast? ends))

theorem numbered_inj {first second : List Char} {one two : ℤ}
    (same : first ++ ' ' :: '#' :: (Int.repr one).toList =
      second ++ ' ' :: '#' :: (Int.repr two).toList) : one = two := by
  have number : ∀ (label : List Char) (employeeId : ℤ),
      ((label ++ ' ' :: '#' :: (Int.repr employeeId).toList).reverse.takeWhile (· ≠ '#')) =
        (Int.repr employeeId).toList.reverse := by
    intro label employeeId
    have digits : ∀ char ∈ (Int.repr employeeId).toList.reverse, decide (char ≠ '#') = true := by
      intro char member
      have numeric := isNumeric_of_mem_repr (List.mem_reverse.mp member)
      refine decide_eq_true ?_
      rintro rfl
      exact absurd numeric (by unfold isNumeric; decide)
    rw [List.reverse_append, List.reverse_cons, List.reverse_cons, List.append_assoc,
      List.append_assoc, List.takeWhile_append_of_pos digits]
    simp
  have digits := congrArg (fun label => label.reverse.takeWhile (· ≠ '#')) same
  simp only [number, List.reverse_inj, String.toList_inj] at digits
  exact repr_inj digits

theorem baseLabel_plain {parts : List (List Char)} (words : ∀ part ∈ parts, ' ' ∉ part)
    (length : ℕ) : Plain (baseLabel length parts) := by
  match parts with
  | [] => exact .inl List.not_mem_nil
  | [only] =>
      refine .inl ?_
      simpa [baseLabel] using words only List.mem_cons_self
  | first :: surname :: _ =>
      exact .inr ⟨first ++ ' ' :: surname.take length, '.', by simp [baseLabel],
        by unfold isNumeric; decide⟩

/-- Initials with their dots, between blanks, end in a dot if there are any. -/
theorem intercalate_ends {initials : List (List Char)}
    (dotted : ∀ initial ∈ initials, ∃ start, initial = start ++ ['.']) :
    initials = [] ∨ ∃ start, [' '].intercalate initials = start ++ ['.'] := by
  induction initials with
  | nil => exact .inl rfl
  | cons initial rest ih =>
      right
      obtain ⟨start, ends⟩ := dotted initial List.mem_cons_self
      cases rest with
      | nil => exact ⟨start, by simp [List.intercalate, ends]⟩
      | cons next others =>
          rcases ih fun other member => dotted other (List.mem_cons_of_mem _ member) with
            none | ⟨later, rest⟩
          · cases none
          · refine ⟨initial ++ ' ' :: later, ?_⟩
            change initial ++ ([' '] ++ [' '].intercalate (next :: others)) = _
            rw [rest]
            simp

theorem fullLabel_plain {parts : List (List Char)} (words : ∀ part ∈ parts, ' ' ∉ part)
    (length : ℕ) : Plain (fullLabel length parts) := by
  match parts with
  | [] => exact baseLabel_plain words length
  | [_] => exact baseLabel_plain words length
  | [_, _] => exact baseLabel_plain words length
  | first :: surname :: third :: others =>
      right
      have dotted : ∀ initial ∈ (((third :: others).filter (· ≠ [])).map fun part : List Char =>
          part.take 1 ++ ['.']), ∃ start, initial = start ++ ['.'] := by
        intro initial member
        obtain ⟨part, -, rfl⟩ := List.mem_map.mp member
        exact ⟨part.take 1, rfl⟩
      have label : fullLabel length (first :: surname :: third :: others) =
          first ++ ' ' :: (surname.take length ++
            ' ' :: laterInitials (first :: surname :: third :: others)) := by
        simp [fullLabel]
      rw [label]
      rcases intercalate_ends dotted with none | ⟨start, ends⟩
      · have initials : laterInitials (first :: surname :: third :: others) = [] := by
          unfold laterInitials
          rw [List.drop_succ_cons, List.drop_succ_cons, List.drop_zero, none]
          rfl
        rw [initials]
        exact ⟨first ++ ' ' :: surname.take length, ' ', by simp, by unfold isNumeric; decide⟩
      · have initials : laterInitials (first :: surname :: third :: others) = start ++ ['.'] :=
          ends
        rw [initials]
        exact ⟨first ++ ' ' :: (surname.take length ++ ' ' :: start), '.', by simp,
          by unfold isNumeric; decide⟩

/-! ## Collisions -/

variable {casefold : List Char → List Char}

variable {first second : ℤ × List Char} {named : Named}

/-- Two employees with one label collide. -/
theorem mem_colliding {labels : Labels} (one : first ∈ labels) (two : second ∈ labels)
    (different : first.1 ≠ second.1) (same : casefold first.2 = casefold second.2) :
    first.1 ∈ colliding casefold labels := by
  have group := Dictionary.getD_get_groupBy (fun entry : ℤ × List Char => casefold entry.2) labels
    (casefold first.2)
  cases stored : (Dictionary.groupBy (fun entry : ℤ × List Char => casefold entry.2) labels).get
      (casefold first.2) with
  | none =>
      rw [stored] at group
      have member : first ∈ labels.filter fun entry => casefold entry.2 = casefold first.2 :=
        List.mem_filter.mpr ⟨one, by simp⟩
      rw [← group] at member
      cases member
  | some entries =>
      rw [stored, Option.getD_some] at group
      have member : first ∈ entries := by
        rw [group]
        exact List.mem_filter.mpr ⟨one, by simp⟩
      have other : second ∈ entries := by
        rw [group]
        exact List.mem_filter.mpr ⟨two, by simp [same]⟩
      have long : 1 < (entries.map Prod.fst).length := by
        by_contra short
        have single : entries.length ≤ 1 := by
          rw [List.length_map] at short
          omega
        match entries, single with
        | [only], _ =>
            rw [List.mem_singleton] at member other
            exact different (member ▸ other ▸ rfl)
      refine List.mem_flatten.mpr ⟨entries.map Prod.fst, ?_, List.mem_map_of_mem member⟩
      refine List.mem_filter.mpr ⟨List.mem_map.mpr ⟨entries, ?_, rfl⟩, decide_eq_true long⟩
      exact List.mem_map.mpr ⟨_, Dictionary.get_eq_some_iff.mp stored, rfl⟩

theorem map_fst_baseLabels (named : Named) (lengths : ℤ → ℕ) :
    (baseLabels named lengths).map Prod.fst = named.map Prod.fst := by
  unfold baseLabels
  rw [List.map_map]
  rfl

/-- The labels of a roster are those of its employees. -/
theorem map_fst_rosterLabels (named : Named) :
    (rosterLabels casefold named).map Prod.fst = named.map Prod.fst := by
  unfold rosterLabels
  simp only [List.map_map]
  refine List.map_congr_left fun entry _ => ?_
  simp only [Function.comp_apply]
  split <;> split <;> rfl

/-- Labels that a comparison at least as fine as the folding of case finds equal belong to one
employee, if it tells the numbers of two labels apart and a number from none. -/
theorem rosterLabels_apart {compare : List Char → List Char}
    (words : ∀ entry ∈ named, ∀ part ∈ entry.2, ' ' ∉ part)
    (finer : ∀ label other, compare label = compare other → casefold label = casefold other)
    (numbers : ∀ label other one two, compare (label ++ ' ' :: '#' :: (Int.repr one).toList) =
      compare (other ++ ' ' :: '#' :: (Int.repr two).toList) → one = two)
    (none : ∀ label, Plain label → ∀ other employeeId,
      compare label ≠ compare (other ++ ' ' :: '#' :: (Int.repr employeeId).toList))
    (one : first ∈ rosterLabels casefold named) (two : second ∈ rosterLabels casefold named)
    (same : compare first.2 = compare second.2) : first.1 = second.1 := by
  unfold rosterLabels at one two
  dsimp only at one two
  generalize lengthen casefold named (rounds named) (fun _ => 1) = lengths at one two
  generalize made : (named.map fun entry =>
    if entry.1 ∈ colliding casefold (baseLabels named lengths) then
      (entry.1, fullLabel (lengths entry.1) entry.2)
    else (entry.1, baseLabel (lengths entry.1) entry.2)) = initialled at one two
  have plain : ∀ entry ∈ initialled, Plain entry.2 := by
    rintro entry member
    rw [← made] at member
    obtain ⟨source, inside, rfl⟩ := List.mem_map.mp member
    split
    · exact fullLabel_plain (words source inside) _
    · exact baseLabel_plain (words source inside) _
  obtain ⟨source, member, rfl⟩ := List.mem_map.mp one
  obtain ⟨other, inside, rfl⟩ := List.mem_map.mp two
  by_cases collides : source.1 ∈ colliding casefold initialled
  · by_cases clashes : other.1 ∈ colliding casefold initialled
    · simp only [if_pos collides, if_pos clashes] at same ⊢
      exact numbers _ _ _ _ same
    · simp only [if_pos collides, if_neg clashes] at same
      exact absurd same.symm (none _ (plain other inside) _ _)
  · by_cases clashes : other.1 ∈ colliding casefold initialled
    · simp only [if_neg collides, if_pos clashes] at same
      exact absurd same (none _ (plain source member) _ _)
    · simp only [if_neg collides, if_neg clashes] at same ⊢
      by_contra different
      exact collides (mem_colliding member inside different (finer _ _ same))

/-- The labels of a roster are distinct. -/
theorem rosterLabels_injective (words : ∀ entry ∈ named, ∀ part ∈ entry.2, ' ' ∉ part)
    (one : first ∈ rosterLabels casefold named) (two : second ∈ rosterLabels casefold named)
    (same : first.2 = second.2) : first.1 = second.1 :=
  rosterLabels_apart words (fun _ _ => congrArg casefold) (fun _ _ _ _ => numbered_inj)
    (fun _ plain => plain.ne_numbered) one two same

/-! ## The end of the loop -/

/-- The letters that labels can still take. -/
def lettersLeft (named : Named) (lengths : ℤ → ℕ) : ℕ :=
  (named.map fun entry => surnameLength (partsOf named entry.1) - lengths entry.1).sum

theorem lettersLeft_update {lengths : ℤ → ℕ} (present : employeeId ∈ named.map Prod.fst)
    (more : canLengthen named lengths employeeId) :
    lettersLeft named (Function.update lengths employeeId (lengths employeeId + 1)) <
      lettersLeft named lengths := by
  have room : lengths employeeId < surnameLength (partsOf named employeeId) := of_decide_eq_true more
  obtain ⟨entry, member, rfl⟩ := List.mem_map.mp present
  refine List.sum_lt_sum _ _ ?_ ⟨entry, member, ?_⟩
  · intro other inside
    by_cases same : other.1 = entry.1
    · rw [same, Function.update_self]
      omega
    · rw [Function.update_of_ne same]
  · rw [Function.update_self]
    omega

theorem lettersLeft_lengthenAll {employeeIds : List ℤ} (lengths : ℤ → ℕ)
    (present : ∀ employeeId ∈ employeeIds, employeeId ∈ named.map Prod.fst) :
    lettersLeft named (lengthenAll named lengths employeeIds) ≤ lettersLeft named lengths := by
  induction employeeIds generalizing lengths with
  | nil => exact le_rfl
  | cons employeeId rest ih =>
      have later := fun lengths => ih lengths fun other member =>
        present other (List.mem_cons_of_mem _ member)
      unfold lengthenAll at later ⊢
      rw [List.foldl_cons]
      split
      · next more =>
          exact (later _).trans
            (lettersLeft_update (present employeeId List.mem_cons_self) more).le
      · exact later lengths

theorem lettersLeft_lt {employeeIds : List ℤ} (lengths : ℤ → ℕ)
    (present : ∀ employeeId ∈ employeeIds, employeeId ∈ named.map Prod.fst)
    (more : employeeIds.any (canLengthen named lengths)) :
    lettersLeft named (lengthenAll named lengths employeeIds) < lettersLeft named lengths := by
  induction employeeIds with
  | nil => cases more
  | cons employeeId rest ih =>
      have others : ∀ other ∈ rest, other ∈ named.map Prod.fst := fun other member =>
        present other (List.mem_cons_of_mem _ member)
      unfold lengthenAll at ih ⊢
      rw [List.foldl_cons]
      by_cases head : canLengthen named lengths employeeId
      · rw [if_pos head]
        exact (lettersLeft_lengthenAll _ others).trans_lt
          (lettersLeft_update (present employeeId List.mem_cons_self) head)
      · rw [if_neg head]
        rw [List.any_cons, Bool.eq_false_iff.mpr head, Bool.false_or] at more
        exact ih others more

theorem mem_of_mem_colliding {labels : Labels} (member : employeeId ∈ colliding casefold labels) :
    employeeId ∈ labels.map Prod.fst := by
  obtain ⟨group, found, inside⟩ := List.mem_flatten.mp member
  obtain ⟨entries, stored, rfl⟩ := List.mem_map.mp (List.mem_of_mem_filter found)
  obtain ⟨⟨key, _⟩, listed, rfl⟩ := List.mem_map.mp stored
  have content := Dictionary.getD_get_groupBy (fun entry : ℤ × List Char => casefold entry.2)
    labels key
  rw [Dictionary.get_eq_some_iff.mpr listed, Option.getD_some] at content
  obtain ⟨entry, present, rfl⟩ := List.mem_map.mp inside
  rw [content] at present
  exact List.mem_map_of_mem (List.mem_of_mem_filter present)

/-- With more rounds than there are letters left, no label that collides can take one more. -/
theorem lengthen_settled {fuel : ℕ} {lengths : ℤ → ℕ} (enough : lettersLeft named lengths < fuel) :
    ∀ employeeId ∈ colliding casefold (baseLabels named (lengthen casefold named fuel lengths)),
      ¬ canLengthen named (lengthen casefold named fuel lengths) employeeId := by
  induction fuel generalizing lengths with
  | zero => exact absurd enough (Nat.not_lt_zero _)
  | succ fuel ih =>
      unfold lengthen
      dsimp only
      split
      · next more =>
          refine ih ?_
          have fewer := lettersLeft_lt lengths (fun employeeId member => by
            have listed := mem_of_mem_colliding member
            rwa [map_fst_baseLabels] at listed) more
          omega
      · next none =>
          intro employeeId member more
          exact none (List.any_eq_true.mpr ⟨employeeId, member, more⟩)

/-- The loop ends by itself: when it does, no label that collides can take a letter more. -/
theorem lengthen_done (named : Named) :
    ∀ employeeId ∈ colliding casefold
        (baseLabels named (lengthen casefold named (rounds named) fun _ => 1)),
      ¬ canLengthen named (lengthen casefold named (rounds named) fun _ => 1) employeeId := by
  refine lengthen_settled (Nat.lt_succ_of_le ?_)
  exact List.sum_le_sum fun entry _ => Nat.sub_le _ _

end PlantManager.Roster

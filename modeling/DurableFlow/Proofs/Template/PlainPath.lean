import DurableFlow.Proofs.Expr.Lexing
import DurableFlow.Template.Placeholder

/-!
# Plain paths

A plain path is a name with further names behind points and digits in brackets, and a text may be
nothing but one output of such a path. `PlainPath` says so without looking at how such texts are
recognised: the parts of a path, how they are spelled, and where a path may stand.
`lonePath?_eq_some_iff` shows that recognising takes the longest run of steps at no loss: what may
stand behind a path belongs to none of its names and begins no step.
-/

namespace DurableFlow

namespace Template

open Placeholder

/-- A step of a plain path: a name behind a point, or digits in brackets. -/
inductive Hop where
  | name (letters : List Char)
  | position (digits : List Char)
deriving DecidableEq

namespace Hop

def spelled : Hop → List Char
  | name letters => '.' :: letters
  | position digits => '[' :: digits ++ [']']

/-- The step into data that is meant: to the field of a name, or to the item at a position. -/
def segment : Hop → Segment
  | name letters => .key (String.ofList letters)
  | position digits => .index (Nat.ofDigitChars 10 digits 0)

end Hop

/-- A letter, an underscore or a dollar sign and word characters behind it. -/
def IsPlainName (letters : List Char) : Prop :=
  ∃ c cs, letters = c :: cs ∧ isStart c = true ∧ ∀ d ∈ cs, isPart d = true

def Hop.IsPlain : Hop → Prop
  | name letters => IsPlainName letters
  | position digits => digits ≠ [] ∧ ∀ d ∈ digits, Text.isDecimalDigit d = true

/-- A plain path. -/
structure PlainPath where
  head : List Char
  hops : List Hop
deriving DecidableEq

namespace PlainPath

def spelled (path : PlainPath) : List Char := path.head ++ path.hops.flatMap Hop.spelled

def text (path : PlainPath) : String := String.ofList path.spelled

/-- The steps into data that are meant: names are those of fields, and digits are positions. -/
def segments (path : PlainPath) : List Segment :=
  .key (String.ofList path.head) :: path.hops.map Hop.segment

structure IsPlain (path : PlainPath) : Prop where
  head : IsPlainName path.head
  hops : ∀ hop ∈ path.hops, hop.IsPlain

/-- A text is one output of a plain path, with white space before and after it, and nothing
else. -/
structure StandsAlone (path : PlainPath) (text : String) : Prop extends path.IsPlain where
  alone : ∃ before after, (∀ c ∈ before, Text.isBlank c = true) ∧
    (∀ c ∈ after, Text.isBlank c = true) ∧
    text.toList = '\x7b' :: '\x7b' :: (before ++ path.spelled ++ after ++ ['\x7d', '\x7d'])

end PlainPath

namespace Placeholder

/-- White space belongs to no name. -/
theorem isPart_of_isBlank {b : Char} (h : Text.isBlank b = true) : isPart b = false := by
  have all : ∀ n ∈ Text.points Text.blankRanges, isPart (Char.ofNat n) = false := by
    simp only [isPart, Text.isWord, Text.within_eq_any]
    decide +kernel
  have this := all b.toNat (Text.mem_points h)
  rwa [Char.ofNat_toNat] at this

theorem isPart_of_isStart {c : Char} (h : isStart c = true) : isPart c = true := by
  simp only [isStart, Bool.or_eq_true, beq_iff_eq] at h
  obtain (letter | rfl) | rfl := h
  · have whole : c.isAlphanum = true := by rw [Char.isAlphanum, letter, Bool.true_or]
    simp [isPart, Text.isWord, Expr.Lexer.isAscii_of_isAlphanum whole, whole]
  · rfl
  · rfl

/-- A name ends here. -/
def EndsName (rest : List Char) : Prop := ∀ c ∈ rest.head?, isPart c = false

/-- A path ends here. -/
def EndsPath (rest : List Char) : Prop :=
  ∀ c ∈ rest.head?, isPart c = false ∧ c ≠ '.' ∧ c ≠ '['

theorem EndsPath.endsName {rest : List Char} (ends : EndsPath rest) : EndsName rest :=
  fun c first => (ends c first).1

theorem takeWhile_of_ends {p : Char → Bool} {cs rest : List Char} (all : ∀ c ∈ cs, p c = true)
    (ends : ∀ c ∈ rest.head?, p c = false) :
    (cs ++ rest).takeWhile p = cs ∧ (cs ++ rest).dropWhile p = rest := by
  rw [List.takeWhile_append_of_pos all, List.dropWhile_append_of_pos all]
  cases rest with
  | nil => simp
  | cons c rest =>
    have stops : p c = false := ends c rfl
    simp [stops]

theorem name?_append {letters rest : List Char} (plain : IsPlainName letters)
    (ends : EndsName rest) : name? (letters ++ rest) = some (letters, rest) := by
  obtain ⟨c, cs, rfl, start, part⟩ := plain
  obtain ⟨taken, dropped⟩ := takeWhile_of_ends part ends
  rw [List.cons_append, name?, if_pos start, taken, dropped]

theorem name?_sound {cs letters rest : List Char} (h : name? cs = some (letters, rest)) :
    IsPlainName letters ∧ cs = letters ++ rest := by
  cases cs with
  | nil => contradiction
  | cons c cs =>
    rw [name?] at h
    split at h
    · rename_i start
      cases h
      exact ⟨⟨c, _, rfl, start, fun d member => List.mem_takeWhile_imp member⟩, by simp⟩
    · contradiction

/-- Where a path ends or goes on, a name of it ends. -/
theorem endsName_hops (hops : List Hop) {rest : List Char} (ends : EndsPath rest) :
    EndsName (hops.flatMap Hop.spelled ++ rest) := by
  cases hops with
  | nil => exact ends.endsName
  | cons hop more => cases hop <;> rintro _ ⟨⟩ <;> rfl

/-- The longest run of steps is what is spelled, whatever ends the path. -/
theorem steps_hops {hops : List Hop} (plain : ∀ hop ∈ hops, hop.IsPlain) {rest : List Char}
    (ends : EndsPath rest) {fuel : Nat} (enough : hops.length ≤ fuel) :
    steps fuel (hops.flatMap Hop.spelled ++ rest) = (hops.flatMap Hop.spelled, rest) := by
  induction hops generalizing fuel with
  | nil =>
    cases fuel with
    | zero => rfl
    | succ fuel =>
      cases rest with
      | nil => rfl
      | cons c rest =>
        obtain ⟨_, point, bracket⟩ := ends c rfl
        rw [List.flatMap_nil, List.nil_append, steps]
        · exact fun _ h => point (List.cons.inj h).1
        · exact fun _ h => bracket (List.cons.inj h).1
  | cons hop more ih =>
    rw [List.length_cons] at enough
    obtain ⟨fuel, rfl⟩ : ∃ n, fuel = n + 1 := ⟨fuel - 1, by omega⟩
    have enough' : more.length ≤ fuel := by omega
    have later := ih (fun other member => plain other (List.mem_cons_of_mem _ member)) enough'
    have own := plain hop List.mem_cons_self
    cases hop with
    | name letters =>
      have named := name?_append own (endsName_hops more ends)
      rw [List.flatMap_cons, Hop.spelled, List.append_assoc, List.cons_append, steps]
      simp only [named, later, List.cons_append]
    | position digits =>
      obtain ⟨nonempty, all⟩ := own
      obtain ⟨d, ds, rfl⟩ := List.exists_cons_of_ne_nil nonempty
      have delimited : ∀ c ∈ (']' :: (more.flatMap Hop.spelled ++ rest)).head?,
          Text.isDecimalDigit c = false := by
        rintro _ ⟨⟩
        rfl
      obtain ⟨taken, dropped⟩ := takeWhile_of_ends all delimited
      rw [List.flatMap_cons, Hop.spelled, List.append_assoc, List.append_assoc, List.cons_append,
        List.singleton_append, steps]
      simp only [taken, dropped, later]
      simp

theorem steps_sound {fuel : Nat} {cs more rest : List Char} (h : steps fuel cs = (more, rest)) :
    ∃ hops : List Hop, (∀ hop ∈ hops, hop.IsPlain) ∧ more = hops.flatMap Hop.spelled ∧
      cs = more ++ rest := by
  have impossible : ∀ {cs more rest : List Char}, (([] : List Char), cs) = (more, rest) →
      ∃ hops : List Hop, (∀ hop ∈ hops, hop.IsPlain) ∧ more = hops.flatMap Hop.spelled ∧
        cs = more ++ rest := by
    rintro cs more rest ⟨⟩
    exact ⟨[], List.forall_mem_nil _, rfl, rfl⟩
  induction fuel generalizing cs more rest with
  | zero => exact impossible h
  | succ fuel ih =>
    unfold steps at h
    split at h
    · rename_i behind
      split at h
      · rename_i letters behind' named
        obtain ⟨plain, rfl⟩ := name?_sound named
        cases h
        obtain ⟨hops, all, spelled, same⟩ := ih
          (rfl : steps fuel behind' = ((steps fuel behind').1, (steps fuel behind').2))
        refine ⟨.name letters :: hops, List.forall_mem_cons.mpr ⟨plain, all⟩, ?_, ?_⟩
        · rw [List.flatMap_cons, Hop.spelled, spelled]
        · simp [← same]
      · exact impossible h
    · rename_i behind
      dsimp only at h
      split at h
      · rename_i d ds behind' digits after
        cases h
        obtain ⟨hops, all, spelled, same⟩ := ih
          (rfl : steps fuel behind' = ((steps fuel behind').1, (steps fuel behind').2))
        have whole : behind = (d :: ds) ++ ']' :: behind' := by
          rw [← digits, ← after, List.takeWhile_append_dropWhile]
        have decimal : ∀ c ∈ d :: ds, Text.isDecimalDigit c = true := by
          rw [← digits]
          exact fun c member => List.mem_takeWhile_imp member
        refine ⟨.position (d :: ds) :: hops,
          List.forall_mem_cons.mpr ⟨⟨List.cons_ne_nil d ds, decimal⟩, all⟩, ?_, ?_⟩
        · rw [List.flatMap_cons, Hop.spelled, digits, ← spelled]
          simp
        · rw [digits, whole]
          simp [← same]
      · exact impossible h
    · exact impossible h

/-- White space before something that does not begin with any is skipped. -/
theorem dropWhile_isBlank {gap rest : List Char} (blank : ∀ c ∈ gap, Text.isBlank c = true)
    (visible : ∀ c ∈ rest.head?, Text.isBlank c = false) :
    (gap ++ rest).dropWhile Text.isBlank = rest :=
  (takeWhile_of_ends blank visible).2

end Placeholder

namespace PlainPath

variable {path : PlainPath} {text : String}

/-- A path begins with no white space. -/
theorem IsPlain.visible (plain : path.IsPlain) (rest : List Char) :
    ∀ c ∈ (path.spelled ++ rest).head?, Text.isBlank c = false := by
  obtain ⟨c, cs, shape, start, -⟩ := plain.head
  rw [spelled, shape]
  rintro _ ⟨⟩
  by_contra blank
  have outside := isPart_of_isBlank (Bool.not_eq_false _ ▸ blank)
  rw [isPart_of_isStart start] at outside
  cases outside

theorem hops_length_le (hops : List Hop) : hops.length ≤ (hops.flatMap Hop.spelled).length := by
  induction hops with
  | nil => exact Nat.le_refl _
  | cons hop more ih =>
    cases hop <;> simp only [List.length_cons, List.flatMap_cons, List.length_append, Hop.spelled,
      List.length_nil] <;> omega

theorem StandsAlone.lonePath? (alone : path.StandsAlone text) :
    Template.lonePath? text = some path.text := by
  obtain ⟨before, after, blank, blank', chars⟩ := alone.alone
  have ends : EndsPath (after ++ ['\x7d', '\x7d']) := by
    cases after with
    | nil =>
      rintro _ ⟨⟩
      exact ⟨rfl, by decide, by decide⟩
    | cons c after =>
      rintro _ ⟨⟩
      have white := blank' c List.mem_cons_self
      refine ⟨isPart_of_isBlank white, ?_, ?_⟩ <;> rintro rfl <;> revert white <;> decide +kernel
  have skipped := dropWhile_isBlank blank (alone.toIsPlain.visible (after ++ ['\x7d', '\x7d']))
  have named := name?_append alone.head (endsName_hops path.hops ends)
  have enough : path.hops.length ≤
      (path.hops.flatMap Hop.spelled ++ (after ++ ['\x7d', '\x7d'])).length := by
    rw [List.length_append]
    exact Nat.le_add_right_of_le (hops_length_le path.hops)
  have walked := steps_hops alone.hops ends enough
  have closed : (after ++ ['\x7d', '\x7d']).dropWhile Text.isBlank = ['\x7d', '\x7d'] :=
    dropWhile_isBlank blank' (by rintro _ ⟨⟩; decide +kernel)
  have front : before ++ path.spelled ++ after ++ ['\x7d', '\x7d'] =
      before ++ (path.spelled ++ (after ++ ['\x7d', '\x7d'])) := by simp
  have root : path.spelled ++ (after ++ ['\x7d', '\x7d']) =
      path.head ++ (path.hops.flatMap Hop.spelled ++ (after ++ ['\x7d', '\x7d'])) := by
    simp [spelled]
  simp only [Template.lonePath?, chars, front, skipped]
  rw [root]
  simp only [named, walked, closed]
  rfl

/-- The texts whose path is recognised are those that are one output of a plain path. -/
theorem lonePath?_eq_some_iff {found : String} :
    Template.lonePath? text = some found ↔
      ∃ path : PlainPath, path.StandsAlone text ∧ path.text = found := by
  refine ⟨fun h => ?_, fun ⟨path, alone, same⟩ => same ▸ alone.lonePath?⟩
  unfold Template.lonePath? at h
  split at h
  · rename_i cs chars
    split at h
    · contradiction
    · rename_i root rest named
      obtain ⟨plain, begins⟩ := name?_sound named
      dsimp only at h
      split at h
      · rename_i closed
        cases h
        obtain ⟨hops, all, spells, whole⟩ := steps_sound
          (rfl : steps rest.length rest = ((steps rest.length rest).1, (steps rest.length rest).2))
        refine ⟨⟨root, hops⟩, ⟨⟨plain, all⟩, cs.takeWhile Text.isBlank,
          (steps rest.length rest).2.takeWhile Text.isBlank,
          fun c member => List.mem_takeWhile_imp member,
          fun c member => List.mem_takeWhile_imp member, ?_⟩, ?_⟩
        · rw [chars, ← closed, List.append_assoc, List.takeWhile_append_dropWhile, spelled,
            ← spells, List.append_assoc, List.append_assoc, ← whole, ← begins,
            List.takeWhile_append_dropWhile]
        · rw [PlainPath.text, spelled, spells]
      · contradiction
  · contradiction

/-- A text that is one output has the mark of an output. -/
theorem StandsAlone.isTemplate (alone : path.StandsAlone text) : isTemplate text = true := by
  obtain ⟨before, after, -, -, chars⟩ := alone.alone
  have marked : Text.occursIn "\x7b\x7b" text = true := by
    rw [Text.occursIn, chars]
    rfl
  rw [Template.isTemplate, marked, Bool.true_or]

end PlainPath

end Template

end DurableFlow

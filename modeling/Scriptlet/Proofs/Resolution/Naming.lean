import Scriptlet.Engine
import Scriptlet.Proofs.Environment
import Scriptlet.Proofs.Form.Grammar
import Scriptlet.Proofs.Form.Reading
import Scriptlet.Proofs.Resolution.Place

/-!
Names of globals, and the scripts that refer to them. A name is accepted if it is spelled as a
symbol and is no special form and no literal. A script that is nothing but the name is then that
symbol, unless the name is a negative number: the minus sign may begin a symbol, but scripts read
numbers first. Apart from these names, whatever is registered can be reached.
-/

namespace Scriptlet

namespace Word

open Decimal

variable {text : List Char}

/-- The word is spelled as a number. -/
def IsNumber (text : List Char) : Prop := (∃ d, FloatText text d) ∨ ∃ i, IntegerText text i

theorem isNumber_iff :
    IsNumber text ↔ (decimal? text).isSome = true ∨ (integer? text).isSome = true := by
  simp only [IsNumber, ← decimal?_eq_some_iff, ← integer?_eq_some_iff, Option.isSome_iff_exists]

instance : DecidablePred IsNumber := fun _ => decidable_of_iff _ isNumber_iff.symm

theorem isPart_of_exponentText {e : Int} (h : ExponentText text e) :
    ∀ c ∈ text, isPart c = true := by
  cases h with
  | absent => simp
  | present hmark hsign hdigits =>
    simp only [List.forall_mem_cons, List.forall_mem_append]
    refine ⟨?_, ?_, fun c hc => isPart_of_isDigit (hdigits.all c hc)⟩
    · rcases hmark with rfl | rfl <;> decide
    · cases hsign <;> exact List.all_eq_true.1 (by decide)

/-- A number is digits after an optional minus sign, and then other characters of words. -/
theorem IsNumber.digits (h : IsNumber text) :
    ∃ sign negative digits rest, MinusText sign negative ∧ Digits digits ∧
      text = sign ++ (digits ++ rest) ∧ ∀ c ∈ rest, isPart c = true := by
  rcases h with ⟨_, ⟨hsign, hwhole, hfraction, hmark⟩⟩ | ⟨_, ⟨hsign, hdigits⟩⟩
  · refine ⟨_, _, _, _, hsign, hwhole, rfl, ?_⟩
    simp only [List.forall_mem_cons, List.forall_mem_append]
    exact ⟨by decide, fun c hc => isPart_of_isDigit (hfraction.all c hc),
      isPart_of_exponentText hmark⟩
  · exact ⟨_, _, _, [], hsign, hdigits, by rw [List.append_nil], by simp⟩

theorem isDigit_of_isStart {c : Char} (h : isStart c = true) : c.isDigit = false := by
  have hsigns : "+-*/<>=!?_%&".toList.all (fun d => !d.isDigit) = true := by decide
  rcases Bool.or_eq_true_iff.1 h with hletter | hsign
  · have hafter : '9'.val < c.val := by
      rcases Bool.or_eq_true_iff.1 hletter with hupper | hlower
      · have hfirst : 'A'.val ≤ c.val := (of_decide_eq_true hupper).1
        exact UInt32.lt_of_lt_of_le (by decide : '9'.val < 'A'.val) hfirst
      · have hfirst : 'a'.val ≤ c.val := of_decide_eq_true (Bool.and_eq_true_iff.1 hlower).1
        exact UInt32.lt_of_lt_of_le (by decide : '9'.val < 'a'.val) hfirst
    exact Bool.and_eq_false_iff.2 (.inr (decide_eq_false (UInt32.not_le.2 hafter)))
  · simpa using List.all_eq_true.1 hsigns c (List.contains_iff_mem.1 hsign)

/-- A number is spelled as a symbol just where it has a minus sign. -/
theorem IsNumber.symbolText_iff (h : IsNumber text) :
    SymbolText text ↔ text.head? = some '-' := by
  obtain ⟨sign, negative, digits, rest, hsign, hdigits, rfl, hrest⟩ := h.digits
  cases hsign with
  | present =>
    have hparts : ∀ c ∈ digits ++ rest, isPart c = true :=
      List.forall_mem_append.2 ⟨fun c hc => isPart_of_isDigit (hdigits.all c hc), hrest⟩
    exact iff_of_true (.mk (by decide) hparts) rfl
  | absent =>
    obtain ⟨c, cs, rfl, hc⟩ := hdigits.head
    refine iff_of_false ?_ (hdigits.head_ne (by decide) rest)
    intro hsymbol
    cases hsymbol with
    | mk hstart =>
      rw [isDigit_of_isStart hstart] at hc
      cases hc

/-- A word that means something has a first character, and only characters of words. -/
theorem Means.exists_cons {r : Except String Atom} (h : Means text r) :
    ∃ c cs, text = c :: cs ∧ ∀ d ∈ c :: cs, isPart d = true := by
  have hnumber : IsNumber text → ∃ c cs, text = c :: cs ∧ ∀ d ∈ c :: cs, isPart d = true := by
    intro hnumber
    obtain ⟨sign, negative, digits, rest, hsign, hdigits, rfl, hrest⟩ := hnumber.digits
    obtain ⟨c, cs, rfl, hc⟩ := hdigits.head
    have hparts : ∀ d ∈ c :: cs ++ rest, isPart d = true :=
      List.forall_mem_append.2 ⟨fun d hd => isPart_of_isDigit (hdigits.all d hd), hrest⟩
    cases hsign with
    | absent => exact ⟨c, cs ++ rest, rfl, hparts⟩
    | present => exact ⟨_, _, rfl, List.forall_mem_cons.2 ⟨by decide, hparts⟩⟩
  cases h with
  | literal h => cases h <;> exact ⟨_, _, rfl, List.all_eq_true.1 (by decide)⟩
  | float h => exact hnumber (.inl ⟨_, h⟩)
  | integer h | oversized h => exact hnumber (.inr ⟨_, h⟩)
  | symbol h =>
    cases h with
    | mk hc hcs => exact ⟨_, _, rfl, List.forall_mem_cons.2 ⟨isPart_of_isStart hc, hcs⟩⟩

/-- A word is a symbol if it is spelled as a symbol and as nothing else. -/
theorem means_symbol_iff {x : String} :
    Means text (.ok (.symbol x)) ↔
      String.ofList text = x ∧ SymbolText text ∧ (∀ a, ¬ LiteralText text a) ∧ ¬ IsNumber text := by
  constructor
  · intro h
    cases h with
    | literal h => cases h
    | symbol h hliteral hfloat hinteger =>
      refine ⟨rfl, h, hliteral, ?_⟩
      rintro (⟨d, hd⟩ | ⟨i, hi⟩)
      · exact hfloat d hd
      · exact hinteger i hi
  · rintro ⟨rfl, h, hliteral, hnumber⟩
    exact .symbol h hliteral (fun d hd => hnumber (.inl ⟨d, hd⟩)) fun i hi => hnumber (.inr ⟨i, hi⟩)

end Word

/-- No number is the name of a special form. -/
theorem isSpecialName_of_isNumber {x : String} (h : Word.IsNumber x.toList) :
    isSpecialName x = false := by
  have hnumber : ∀ f : SpecialForm, ¬ Word.IsNumber f.name.toList := by
    intro f
    cases f <;> decide
  by_contra hspecial
  rw [Bool.not_eq_false] at hspecial
  obtain ⟨f, hf⟩ := Option.isSome_iff_exists.1 hspecial
  apply hnumber f
  rwa [SpecialForm.name_of_ofName? hf]

theorem Word.not_literalText_of_isNumber {text : List Char} (h : Word.IsNumber text) :
    ∀ a, ¬ Word.LiteralText text a := by
  rintro a (_ | _ | _) <;> exact absurd h (by decide)

theorem Word.literal?_eq_none_iff {x : String} :
    Word.literal? x = none ↔ ∀ a, ¬ Word.LiteralText x.toList a := by
  have hname : Word.literal? (String.ofList x.toList) = Word.literal? x := by
    rw [String.ofList_toList]
  rw [← hname, Option.eq_none_iff_forall_ne_some]
  exact forall_congr' fun a => not_congr Word.literal?_eq_some_iff

/-- The names that are accepted. -/
theorem nameFlaw?_eq_none_iff {x : String} :
    nameFlaw? x = none ↔
      isSpecialName x = false ∧ Word.SymbolText x.toList ∧
        ∀ a, ¬ Word.LiteralText x.toList a := by
  rw [nameFlaw?, ← Word.isSymbol_iff, ← Word.literal?_eq_none_iff]
  by_cases hempty : x = ""
  · subst hempty
    decide
  · have hnonempty : x.isEmpty = false := by simpa using hempty
    cases isSpecialName x <;> cases Word.isSymbol x.toList <;> cases Word.literal? x <;>
      simp [hnonempty]

namespace Script

variable {limit : Nat} {x : String}

/-- The script that is nothing but the name is the name. -/
def IsName (limit : Nat) (x : String) : Prop :=
  ∃ span whole, read limit x = .ok ⟨[.leaf (.symbol x) span], whole⟩

/-- A script that is one word with a meaning is read as what the word means. -/
theorem read_word {a : Atom} (h : Word.Means x.toList (.ok a)) (limit : Nat) :
    read limit x = .ok ⟨[.leaf a ⟨0, x.utf8ByteSize⟩], ⟨0, x.utf8ByteSize⟩⟩ := by
  obtain ⟨c, cs, htext, hparts⟩ := h.exists_cons
  have hlayout : Layout false 0 x.toList [⟨.word x.toList, ⟨0, x.utf8ByteSize⟩⟩] := by
    have hone : Layout false 0 ((c :: cs) ++ [])
        [⟨.word (c :: cs), ⟨0, 0 + utf8Length (c :: cs)⟩⟩] :=
      .at_front (.word hparts) (.last (.gap .nil))
    rwa [List.append_nil, Nat.zero_add, ← htext, utf8Length_toList] at hone
  have hlaid : LaidOut x.toList [.leaf a ⟨0, x.utf8ByteSize⟩] :=
    ⟨_, hlayout, .leaf (.word h) .nil⟩
  have hnesting := (hlaid.withinNesting_iff limit).2 (Nat.zero_le limit)
  exact readChars_eq_ok_iff.2
    ⟨hnesting, List.cons_ne_nil _ _, hlaid, by rw [utf8Length_toList]⟩

theorem isName_iff : IsName limit x ↔ Word.Means x.toList (.ok (.symbol x)) := by
  constructor
  · rintro ⟨span, whole, h⟩
    obtain ⟨-, -, ⟨ls, -, hspells⟩, -⟩ := readChars_eq_ok_iff.1 h
    cases hspells with
    | leaf ha hrest =>
      cases ha with
      | word hmeans =>
        obtain ⟨htext, -⟩ := Word.means_symbol_iff.1 hmeans
        rwa [← htext, String.toList_ofList, htext]
  · intro h
    exact ⟨_, _, read_word h limit⟩

end Script

theorem nameFlaw?_eq_none_iff_isName (limit : Nat) {x : String} :
    nameFlaw? x = none ↔ Script.IsName limit x ∧ isSpecialName x = false ∨
      Word.IsNumber x.toList ∧ x.toList.head? = some '-' := by
  rw [nameFlaw?_eq_none_iff, Script.isName_iff, Word.means_symbol_iff]
  by_cases hnumber : Word.IsNumber x.toList
  · -- A number is neither a special form nor a literal, so only its first character decides.
    have hspecial := isSpecialName_of_isNumber hnumber
    have hliteral := Word.not_literalText_of_isNumber hnumber
    simp [hnumber, hspecial, hliteral, hnumber.symbolText_iff]
  · simp [hnumber, and_comm]

namespace Builder

variable {name : String} {value : Value} {doc : String}

/-- What a builder has become by more steps, those that fail among them. -/
inductive Continues (b : Builder) : Builder → Prop where
  | refl : Continues b b
  | category {c} (title : String) (h : Continues b c) :
      Continues b ((Registration.category title).run c).2
  | constant {c} (name : String) (value : Value) (doc : String) (h : Continues b c) :
      Continues b ((Registration.constant name value doc).run c).2
  | function {c} (name : String) (arity : Arity) (doc : String) (action : Action)
      (h : Continues b c) : Continues b ((Registration.function name arity doc action).run c).2

theorem get?_constant {c : Builder} {x : String} {v : Value}
    (hx : c.environment.get? x = some v) (name : String) (value : Value) (doc : String) :
    ((Registration.constant name value doc).run c).2.environment.get? x = some v := by
  obtain ⟨c', hc, hrun⟩ | ⟨e, -, hrun⟩ := Registration.constant_run name value doc c <;> rw [hrun]
  · obtain ⟨g, hg, hname⟩ := Environment.get?_eq_some_iff.1 hx
    refine Environment.get?_eq_some_iff.2 ⟨g, ?_, hname⟩
    rw [(insert_ok hc).2]
    exact List.mem_append_left _ hg
  · exact hx

/-- What is registered stays. -/
theorem Continues.get? {b c : Builder} (h : b.Continues c) {x : String} {v : Value}
    (hx : b.environment.get? x = some v) : c.environment.get? x = some v := by
  induction h with
  | refl => exact hx
  | category _ _ ih => exact ih
  | constant name value doc _ ih => exact get?_constant ih name value doc
  | function name _ doc _ _ ih => exact get?_constant ih name _ doc

theorem get?_of_insert {b b' : Builder} (h : b.insert name value doc = .ok b') :
    b'.environment.get? name = some value := by
  rw [Environment.get?_eq_some_iff, (insert_ok h).2]
  exact ⟨_, List.mem_append_right _ (List.mem_singleton_self _), rfl, rfl⟩

end Builder

/-- A script that is the name of a global compiles to the value of the global. -/
theorem Engine.compile_name {e : Engine} {x : String} {v : Value}
    (hname : Word.Means x.toList (.ok (.symbol x))) (hx : e.environment.get? x = some v)
    (serial : Nat) {script : String} (hscript : script ≠ "") :
    e.compile serial script x =
      .ok ⟨serial, script, .constant v ⟨0, x.utf8ByteSize⟩, []⟩ := by
  have hempty : script.isEmpty = false := by simpa using hscript
  have hresolve : Resolution.symbol e.environment .top x ⟨0, x.utf8ByteSize⟩ =
      pure (.constant v ⟨0, x.utf8ByteSize⟩) := by
    rw [Resolution.symbol, hx]
    rfl
  rw [Engine.compile, hempty, Script.read_word hname]
  simp only [Script.resolve, Resolution.all, Resolution.form, hresolve]
  rfl

/-- A name that is not taken is accepted where a script that is nothing but the name is the name,
and this is no special form; and it is accepted where it is a number with a minus sign, and then
the script is never the name. Any other name that is accepted compiles to what was
registered, and goes on to do so after more registrations. -/
theorem Builder.insert_reaches (b : Builder) (name : String) (value : Value) (doc : String)
    (limit : Nat) :
    ((∃ b', b.insert name value doc = .ok b') ↔
      b.environment.contains name = false ∧
        (Script.IsName limit name ∧ isSpecialName name = false ∨
          Word.IsNumber name.toList ∧ name.toList.head? = some '-')) ∧
    (Word.IsNumber name.toList → ¬ Script.IsName limit name) ∧
    ∀ b' c, b.insert name value doc = .ok b' → b'.Continues c → ¬ Word.IsNumber name.toList →
      ∀ (e : Engine) (serial : Nat) (script : String), e.environment = c.environment →
        script ≠ "" → e.compile serial script name =
          .ok ⟨serial, script, .constant value ⟨0, name.utf8ByteSize⟩, []⟩ := by
  refine ⟨?_, ?_, ?_⟩
  · rw [insert_eq_ok_iff, nameFlaw?_eq_none_iff_isName limit]
  · intro hnumber hname
    exact (Word.means_symbol_iff.1 (Script.isName_iff.1 hname)).2.2.2 hnumber
  · intro b' c hb' hc hnumber e serial script he hscript
    have hget : e.environment.get? name = some value := by
      rw [he]
      exact hc.get? (get?_of_insert hb')
    obtain ⟨hname, -⟩ | ⟨hminus, -⟩ :=
      (nameFlaw?_eq_none_iff_isName limit).1 (insert_ok hb').1
    · exact Engine.compile_name (Script.isName_iff.1 hname) hget serial hscript
    · exact absurd hminus hnumber

theorem Builder.insert_reaches_later :
    ∃ b c, (start 0).insert "answer" (.int 42) "" = .ok b ∧
      ((Registration.constant "question" .nil "").run b).2 = c ∧
      ({ environment := c.environment } : Engine).compile 0 "main" "answer" =
        .ok ⟨0, "main", .constant (.int 42) ⟨0, 6⟩, []⟩ := by
  obtain ⟨b, hb⟩ : ∃ b, (start 0).insert "answer" (.int 42) "" = .ok b :=
    insert_eq_ok_iff.2 ⟨by decide, by decide⟩
  refine ⟨b, _, hb, rfl, ?_⟩
  exact (insert_reaches (start 0) "answer" (.int 42) "" 0).2.2 b _ hb
    (.constant "question" .nil "" .refl) (by decide) _ 0 "main" rfl (by decide)

/-- The name is accepted, and the script that is the name is the number. -/
theorem Builder.insert_unreached :
    ∃ b, (start 0).insert "-1" (.bool true) "" = .ok b ∧
      b.environment.get? "-1" = some (.bool true) ∧ ¬ Script.IsName defaultNesting "-1" ∧
      ({ environment := b.environment } : Engine).compile 0 "main" "-1" =
        .ok ⟨0, "main", .constant (.int (-1)) ⟨0, 2⟩, []⟩ := by
  obtain ⟨b, hb⟩ : ∃ b, (start 0).insert "-1" (.bool true) "" = .ok b :=
    insert_eq_ok_iff.2 ⟨by decide, by decide⟩
  have hmeans : Word.Means "-1".toList (.ok (.int (-1))) :=
    .integer (.mk .present ⟨by decide, List.all_eq_true.1 (by decide)⟩) (by decide)
  refine ⟨b, hb, get?_of_insert hb, ?_, ?_⟩
  · intro hname
    exact (Word.means_symbol_iff.1 (Script.isName_iff.1 hname)).2.2.2 (by decide)
  · rw [Engine.compile, Script.read_word hmeans]
    rfl

end Scriptlet

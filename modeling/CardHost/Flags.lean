import CardHost.Text

/-!
# Words made of named bits

Registers, command words and descriptors carry sets of named bits in 32-bit words.  A `Layout`
lists the names of one kind of word in order; a name may stand for several bits at once.  The word
itself stays a plain `UInt32`, so bits without a name are kept by every operation that does not
mention them.

Main definitions: `known` (all named bits), `named` (the names a word contains) and `render`.
-/

namespace CardHost

/-- The names of the bits of one kind of word. -/
structure Layout where
  title : String
  entries : List (String × UInt32)

/-- Whether every bit of `bits` is set in `word`. -/
def hasAll (word bits : UInt32) : Bool :=
  word &&& bits == bits

/-- Whether some bit of `bits` is set in `word`. -/
def hasAny (word bits : UInt32) : Bool :=
  word &&& bits != 0

/-- The word with the bits of `bits` cleared. -/
def without (word bits : UInt32) : UInt32 :=
  word &&& ~~~bits

namespace Layout

/-- Every bit that has a name. -/
def known (layout : Layout) : UInt32 :=
  layout.entries.foldl (fun bits entry => bits ||| entry.2) 0

/-- The named bits of a word. -/
def truncate (layout : Layout) (word : UInt32) : UInt32 :=
  word &&& layout.known

/-- The named bits that a word lacks. -/
def complement (layout : Layout) (word : UInt32) : UInt32 :=
  layout.truncate (~~~word)

/-- The word itself if all its bits have names. -/
def withinNames? (layout : Layout) (word : UInt32) : Option UInt32 :=
  if without word layout.known = 0 then some word else none

/-- Walks the names in order.  A name is taken when the word has all its bits and at least one of
them is still in `rest`; its bits then leave `rest`.  The second part of the answer is what no name
took. -/
def takeNames (word : UInt32) : List (String × UInt32) → UInt32 → List (String × UInt32) × UInt32
  | [], rest => ([], rest)
  | entry :: entries, rest =>
    if hasAll word entry.2 && hasAny rest entry.2 then
      let taken := takeNames word entries (without rest entry.2)
      (entry :: taken.1, taken.2)
    else
      takeNames word entries rest

/-- The names a word contains, in the order of the layout. -/
def named (layout : Layout) (word : UInt32) : List (String × UInt32) :=
  (takeNames word layout.entries word).1

/-- A set of bits in writing: the names, then what is left over as a number. -/
def render (layout : Layout) (word : UInt32) : String :=
  let taken := takeNames word layout.entries word
  let rest := if taken.2 = 0 then [] else [Text.hexLower taken.2.toNat]
  let parts := taken.1.map (·.1) ++ rest
  layout.title ++ "(" ++ (if word = 0 then "0x0" else " | ".intercalate parts) ++ ")"

/-- Every name taken is one of the layout and lies inside the word. -/
theorem mem_takeNames {word rest : UInt32} {entries : List (String × UInt32)}
    {entry : String × UInt32} (h : entry ∈ (takeNames word entries rest).1) :
    entry ∈ entries ∧ hasAll word entry.2 = true := by
  induction entries generalizing rest with
  | nil => simp [takeNames] at h
  | cons first entries ih =>
      unfold takeNames at h
      split at h
      · rename_i hc
        rcases List.mem_cons.mp h with rfl | h
        · exact ⟨List.mem_cons_self, (Bool.and_eq_true_iff.mp hc).1⟩
        · exact ⟨List.mem_cons_of_mem _ (ih h).1, (ih h).2⟩
      · exact ⟨List.mem_cons_of_mem _ (ih h).1, (ih h).2⟩

/-- The names of a word lie inside it. -/
theorem hasAll_of_mem_named {layout : Layout} {word : UInt32} {entry : String × UInt32}
    (h : entry ∈ layout.named word) : hasAll word entry.2 = true :=
  (mem_takeNames h).2

end Layout

end CardHost

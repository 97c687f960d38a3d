import PacketExpr.Proofs.Attribute.Emission

/-!
# Forests of attributes

Attributes that nest form trees: at the leaves stand payloads, words and texts, and an inner node is
a nested attribute with the attributes of the next level in it.  `AttributeTree.writeAll` writes the
trees of a forest in document order, a nested attribute being opened before its children and closed
behind them.

Writing succeeds if and only if every attribute fits its length field and the forest fits the
budget, and then it gives the encodings of the trees one after the other.  Every level of the forest
is read back from its bytes.
-/

namespace PacketExpr

inductive AttributeTree where
  | leaf (type : UInt16) (payload : Bytes)
  | word (type : UInt16) (number : UInt32)
  | text (type : UInt16) (content : String)
  | nest (type : UInt16) (children : List AttributeTree)

namespace AttributeTree

mutual

/-- Writes a tree, a nested attribute around its children. -/
def write : AttributeTree → Write Unit
  | leaf type payload => Write.put type payload
  | word type number => Write.putWord type number
  | text type content => Write.putText type content
  | nest type children => Write.putNest type (writeAll children)

def writeAll : List AttributeTree → Write Unit
  | [] => pure ()
  | tree :: trees => do
    write tree
    writeAll trees

end

mutual

/-- The bytes of a tree.  The length in the header of a nested attribute covers its children. -/
def encode : AttributeTree → Bytes
  | leaf type payload => Attribute.encode ⟨type, payload⟩
  | word type number => Attribute.encode ⟨type, Bytes.ofWord number⟩
  | text type content => Attribute.encode ⟨type, content.toUTF8.toList ++ [0]⟩
  | nest type children =>
      Attribute.encodeHeader (Attribute.headerSize + (encodeAll children).length)
        (type ||| Attribute.nestedFlag) ++ encodeAll children

def encodeAll : List AttributeTree → Bytes
  | [] => []
  | tree :: trees => encode tree ++ encodeAll trees

end

mutual

/-- The number that the length field of a tree has to hold. -/
def size : AttributeTree → Nat
  | leaf _ payload => Attribute.headerSize + payload.length
  | word _ _ => Attribute.headerSize + 4
  | text _ content => Attribute.headerSize + (content.utf8ByteSize + 1)
  | nest _ children => Attribute.headerSize + totalSize children

/-- Number of bytes that trees take one after the other, each of them padded. -/
def totalSize : List AttributeTree → Nat
  | [] => 0
  | tree :: trees => paddedSize (size tree) + totalSize trees

end

mutual

/-- A tree and all that is nested in it. -/
def subtrees : AttributeTree → List AttributeTree
  | leaf type payload => [leaf type payload]
  | word type number => [word type number]
  | text type content => [text type content]
  | nest type children => nest type children :: allSubtrees children

def allSubtrees : List AttributeTree → List AttributeTree
  | [] => []
  | tree :: trees => subtrees tree ++ allSubtrees trees

end

/-- The levels of a forest: its trees, and the children of any nested attribute in it. -/
def IsLevel (forest level : List AttributeTree) : Prop :=
  level = forest ∨ ∃ type, nest type level ∈ allSubtrees forest

/-- The type under which a tree was written. -/
def type : AttributeTree → UInt16
  | leaf type _ => type
  | word type _ => type
  | text type _ => type
  | nest type _ => type

/-- The type without its two flags. -/
def kind (tree : AttributeTree) : Nat := tree.type.toNat % 0x4000

def payload : AttributeTree → Bytes
  | leaf _ payload => payload
  | word _ number => Bytes.ofWord number
  | text _ content => content.toUTF8.toList ++ [0]
  | nest _ children => encodeAll children

/-- The last tree of a kind. -/
def lastOfKind? (kind : Nat) (level : List AttributeTree) : Option AttributeTree :=
  (level.filter fun tree => tree.kind = kind).getLast?

/-- The attribute that stands for a tree at its level. -/
def toAttribute : AttributeTree → Attribute
  | nest type children => ⟨type ||| Attribute.nestedFlag, encodeAll children⟩
  | tree => ⟨tree.type, tree.payload⟩

/-- The trees of a level take whole words, since each of them is padded. -/
theorem totalSize_mod_four (trees : List AttributeTree) : totalSize trees % 4 = 0 := by
  induction trees with
  | nil => simp [totalSize]
  | cons tree trees ih =>
      have padded := paddedSize_mod_four (size tree)
      rw [totalSize]
      omega

/-- A nested attribute needs no padding of its own, since that of its children is part of it. -/
theorem paddedSize_size_nest (type : UInt16) (children : List AttributeTree) :
    paddedSize (nest type children).size = (nest type children).size := by
  have wholeWords := totalSize_mod_four children
  simp only [size, Attribute.headerSize, paddedSize]
  omega

mutual

theorem length_encode : (tree : AttributeTree) → tree.encode.length = paddedSize tree.size
  | leaf type payload => Attribute.length_encode ⟨type, payload⟩
  | word type number => Attribute.length_encode ⟨type, Bytes.ofWord number⟩
  | text type content => by
      rw [encode, Attribute.length_encode, Attribute.size, List.length_append, length_toUTF8]
      rfl
  | nest type children => by
      rw [paddedSize_size_nest, encode, List.length_append, Attribute.length_encodeHeader,
        length_encodeAll children, size]

theorem length_encodeAll :
    (trees : List AttributeTree) → (encodeAll trees).length = totalSize trees
  | [] => rfl
  | tree :: trees => by
      rw [encodeAll, List.length_append, length_encode tree, length_encodeAll trees, totalSize]

end

theorem size_toAttribute (tree : AttributeTree) : tree.toAttribute.size = tree.size := by
  cases tree with
  | leaf type payload => rfl
  | word type number => rfl
  | text type content =>
      simp only [toAttribute, Attribute.size, payload, List.length_append, length_toUTF8, size]
      rfl
  | nest type children => rw [toAttribute, Attribute.size, length_encodeAll, size]

/-- A tree is encoded as the attribute that stands for it, although the header of a nested attribute
is only completed behind its children. -/
theorem encode_toAttribute (tree : AttributeTree) : tree.toAttribute.encode = tree.encode := by
  cases tree with
  | leaf type payload => rfl
  | word type number => rfl
  | text type content => rfl
  | nest type children =>
      have wholeWords : (encodeAll children).length % 4 = 0 := by
        rw [length_encodeAll]
        exact totalSize_mod_four children
      rw [toAttribute, Write.encode_of_wholeWords wholeWords, encode]

theorem encodeAll_map_toAttribute (trees : List AttributeTree) :
    Attribute.encodeAll (trees.map toAttribute) = encodeAll trees := by
  induction trees with
  | nil => rfl
  | cons tree trees ih =>
      rw [List.map_cons, Attribute.encodeAll_cons, ih, encode_toAttribute, encodeAll]

mutual

/-- A tree in which every attribute fits its length field emits its encoding. -/
theorem emits_write : (tree : AttributeTree) →
    (∀ inner ∈ tree.subtrees, inner.size ≤ Attribute.maxSize) →
      Write.Emits tree.write tree.encode
  | leaf type payload, fit => Write.emits_put (fit (leaf type payload) (by simp [subtrees]))
  | word type number, _ => Write.emits_put (by rw [Bytes.length_ofWord]; decide)
  | text type content, fit => by
      have fits := fit (text type content) (by simp [subtrees])
      apply Write.emits_put
      rw [List.length_append, length_toUTF8]
      exact fits
  | nest type children, fit => by
      rw [subtrees, List.forall_mem_cons] at fit
      have emits := emits_writeAll children fit.2
      rw [write, ← encode_toAttribute]
      apply Write.emits_putNest emits
      rw [length_encodeAll]
      exact fit.1

/-- A forest in which every attribute fits its length field is written if there is room. -/
theorem emits_writeAll : (trees : List AttributeTree) →
    (∀ tree ∈ allSubtrees trees, tree.size ≤ Attribute.maxSize) →
      Write.Emits (writeAll trees) (encodeAll trees)
  | [], _ => Write.emits_pure
  | tree :: trees, fit => by
      rw [allSubtrees, List.forall_mem_append] at fit
      exact Write.emits_bind (emits_write tree fit.1) (emits_writeAll trees fit.2)

end

mutual

/-- A tree with an attribute that is too long for its length field is refused.  If all that is
nested in it fits, this is written first, and it is closing the tree that fails. -/
theorem refuses_write : (tree : AttributeTree) →
    (∃ inner ∈ tree.subtrees, Attribute.maxSize < inner.size) → Write.Refuses tree.write
  | leaf type payload, tooLong => by
      simp only [subtrees, List.mem_singleton, exists_eq_left] at tooLong
      exact Write.refuses_put tooLong
  | word type number, tooLong => by
      simp only [subtrees, List.mem_singleton, exists_eq_left] at tooLong
      exact absurd tooLong (by simp [size, Attribute.headerSize, Attribute.maxSize])
  | text type content, tooLong => by
      simp only [subtrees, List.mem_singleton, exists_eq_left] at tooLong
      apply Write.refuses_put
      rw [List.length_append, length_toUTF8]
      exact tooLong
  | nest type children, tooLong => by
      by_cases fit : ∀ tree ∈ allSubtrees children, tree.size ≤ Attribute.maxSize
      · have outermost : Attribute.maxSize < (nest type children).size := by
          rcases tooLong with ⟨inner, inner_mem, long⟩
          rw [subtrees, List.mem_cons] at inner_mem
          rcases inner_mem with rfl | nested
          · exact long
          · exact absurd (fit inner nested) (Nat.not_le_of_gt long)
        apply Write.refuses_putNest_of_tooLong (emits_writeAll children fit)
        rw [length_encodeAll]
        exact outermost
      · simp only [not_forall, Nat.not_le, exists_prop] at fit
        exact Write.refuses_putNest_of_inner (refuses_writeAll children fit)

/-- A forest with an attribute that is too long for its length field is written nowhere. -/
theorem refuses_writeAll : (trees : List AttributeTree) →
    (∃ tree ∈ allSubtrees trees, Attribute.maxSize < tree.size) → Write.Refuses (writeAll trees)
  | [], tooLong => by simp [allSubtrees] at tooLong
  | tree :: trees, tooLong => by
      by_cases fit : ∀ inner ∈ tree.subtrees, inner.size ≤ Attribute.maxSize
      · have later : ∃ other ∈ allSubtrees trees, Attribute.maxSize < other.size := by
          rcases tooLong with ⟨other, other_mem, long⟩
          rw [allSubtrees, List.mem_append] at other_mem
          rcases other_mem with inFirst | inRest
          · exact absurd (fit other inFirst) (Nat.not_le_of_gt long)
          · exact ⟨other, inRest, long⟩
        exact Write.refuses_bind_of_second (emits_write tree fit) (refuses_writeAll trees later)
      · simp only [not_forall, Nat.not_le, exists_prop] at fit
        exact Write.refuses_bind_of_first (refuses_write tree fit)

end

/-- The two limits are independent of each other: the length fields have to admit every attribute,
and the budget the forest as a whole. -/
theorem bytesWithin_writeAll (limit : Nat) (forest : List AttributeTree) :
    Write.bytesWithin limit (writeAll forest) =
      if (∀ tree ∈ allSubtrees forest, tree.size ≤ Attribute.maxSize) ∧
          totalSize forest ≤ limit then
        .ok (encodeAll forest)
      else
        .error .noSpace := by
  by_cases fit : ∀ tree ∈ allSubtrees forest, tree.size ≤ Attribute.maxSize
  · rw [(emits_writeAll forest fit).bytesWithin_eq, length_encodeAll]
    simp only [eq_true fit, true_and]
  · have noneWritten : ¬((∀ tree ∈ allSubtrees forest, tree.size ≤ Attribute.maxSize) ∧
        totalSize forest ≤ limit) := fun both => fit both.1
    rw [if_neg noneWritten]
    simp only [not_forall, Nat.not_le, exists_prop] at fit
    exact (refuses_writeAll forest fit).bytesWithin_eq limit

theorem writeAll_append (front back : List AttributeTree) :
    writeAll (front ++ back) = (do writeAll front; writeAll back) := by
  induction front with
  | nil => simp [writeAll]
  | cons tree front ih => simp only [List.cons_append, writeAll, ih, bind_assoc]

theorem encodeAll_append (front back : List AttributeTree) :
    encodeAll (front ++ back) = encodeAll front ++ encodeAll back := by
  induction front with
  | nil => rfl
  | cons tree front ih => rw [List.cons_append, encodeAll, encodeAll, ih, List.append_assoc]

mutual

theorem paddedSize_le_of_mem_subtrees {inner : AttributeTree} : (tree : AttributeTree) →
    inner ∈ tree.subtrees → paddedSize inner.size ≤ paddedSize tree.size
  | leaf type payload, inner_mem => by
      rw [subtrees, List.mem_singleton] at inner_mem
      exact Nat.le_of_eq (by rw [inner_mem])
  | word type number, inner_mem => by
      rw [subtrees, List.mem_singleton] at inner_mem
      exact Nat.le_of_eq (by rw [inner_mem])
  | text type content, inner_mem => by
      rw [subtrees, List.mem_singleton] at inner_mem
      exact Nat.le_of_eq (by rw [inner_mem])
  | nest type children, inner_mem => by
      rw [subtrees, List.mem_cons] at inner_mem
      rcases inner_mem with rfl | nested
      · exact Nat.le_refl _
      · have within := paddedSize_le_totalSize children nested
        have padded := le_paddedSize (nest type children).size
        rw [size] at padded ⊢
        omega

/-- No attribute of a forest takes more bytes than the forest, at whatever level it is. -/
theorem paddedSize_le_totalSize {inner : AttributeTree} : (trees : List AttributeTree) →
    inner ∈ allSubtrees trees → paddedSize inner.size ≤ totalSize trees
  | [], inner_mem => by simp [allSubtrees] at inner_mem
  | tree :: trees, inner_mem => by
      rw [allSubtrees, List.mem_append] at inner_mem
      rw [totalSize]
      rcases inner_mem with inFirst | inRest
      · have within := paddedSize_le_of_mem_subtrees tree inFirst
        omega
      · have within := paddedSize_le_totalSize trees inRest
        omega

end

/-- A budget that no length field exceeds leaves one question: whether the forest fits it. -/
theorem bytesWithin_writeAll_of_limit_le {limit : Nat} (limit_le : limit ≤ Attribute.maxSize)
    (forest : List AttributeTree) :
    Write.bytesWithin limit (writeAll forest) =
      if totalSize forest ≤ limit then .ok (encodeAll forest) else .error .noSpace := by
  have fit_of_room (room : totalSize forest ≤ limit) :
      ∀ tree ∈ allSubtrees forest, tree.size ≤ Attribute.maxSize := by
    intro tree tree_mem
    have within := paddedSize_le_totalSize forest tree_mem
    have padded := le_paddedSize tree.size
    omega
  rw [bytesWithin_writeAll]
  simp only [and_iff_right_of_imp fit_of_room]

/-- The flag of nested attributes is no part of the kind. -/
theorem kind_toAttribute (tree : AttributeTree) : tree.toAttribute.kind = tree.kind := by
  cases tree with
  | leaf type payload => rfl
  | word type number => rfl
  | text type content => rfl
  | nest type children =>
      have flagAbove : Attribute.nestedFlag.toNat % 2 ^ 14 = 0 := rfl
      change (type ||| Attribute.nestedFlag).toNat % 2 ^ 14 = type.toNat % 2 ^ 14
      rw [UInt16.toNat_or, Nat.or_mod_two_pow, flagAbove, Nat.or_zero]

theorem payload_toAttribute (tree : AttributeTree) : tree.toAttribute.payload = tree.payload := by
  cases tree <;> rfl

theorem lastPayload?_map_toAttribute (kind : Nat) (level : List AttributeTree) :
    Attribute.lastPayload? kind (level.map toAttribute) =
      (lastOfKind? kind level).map payload := by
  simp only [Attribute.lastPayload?, lastOfKind?, List.filter_map, List.getLast?_map,
    Option.map_map, Function.comp_def, kind_toAttribute, payload_toAttribute]

theorem mem_subtrees_self (tree : AttributeTree) : tree ∈ tree.subtrees := by
  cases tree <;> simp [subtrees]

theorem mem_allSubtrees_of_mem {tree : AttributeTree} {trees : List AttributeTree}
    (tree_mem : tree ∈ trees) : tree ∈ allSubtrees trees := by
  induction trees with
  | nil => cases tree_mem
  | cons first trees ih =>
      rw [allSubtrees, List.mem_append]
      rcases List.mem_cons.mp tree_mem with rfl | later
      · exact Or.inl (mem_subtrees_self tree)
      · exact Or.inr (ih later)

mutual

theorem mem_subtrees_of_nest_mem {type : UInt16} {children : List AttributeTree}
    {child : AttributeTree} (child_mem : child ∈ children) : (tree : AttributeTree) →
      nest type children ∈ tree.subtrees → child ∈ tree.subtrees
  | leaf _ _, nest_mem => by simp [subtrees] at nest_mem
  | word _ _, nest_mem => by simp [subtrees] at nest_mem
  | text _ _, nest_mem => by simp [subtrees] at nest_mem
  | nest _ others, nest_mem => by
      rw [subtrees, List.mem_cons] at nest_mem ⊢
      rcases nest_mem with same | deeper
      · cases same
        exact Or.inr (mem_allSubtrees_of_mem child_mem)
      · exact Or.inr (mem_allSubtrees_of_nest_mem child_mem others deeper)

/-- The children of a nested attribute that occurs in a forest occur in it, too. -/
theorem mem_allSubtrees_of_nest_mem {type : UInt16} {children : List AttributeTree}
    {child : AttributeTree} (child_mem : child ∈ children) : (trees : List AttributeTree) →
      nest type children ∈ allSubtrees trees → child ∈ allSubtrees trees
  | [], nest_mem => by simp [allSubtrees] at nest_mem
  | tree :: trees, nest_mem => by
      rw [allSubtrees, List.mem_append] at nest_mem ⊢
      rcases nest_mem with inFirst | inRest
      · exact Or.inl (mem_subtrees_of_nest_mem child_mem tree inFirst)
      · exact Or.inr (mem_allSubtrees_of_nest_mem child_mem trees inRest)

end

theorem IsLevel.mem_allSubtrees {forest level : List AttributeTree} (isLevel : IsLevel forest level)
    {tree : AttributeTree} (tree_mem : tree ∈ level) : tree ∈ allSubtrees forest := by
  rcases isLevel with rfl | ⟨type, nest_mem⟩
  · exact mem_allSubtrees_of_mem tree_mem
  · exact mem_allSubtrees_of_nest_mem tree_mem forest nest_mem

/-- A schema that covers the kinds below `size` and admits every payload. -/
def permissive (size : Nat) : Schema := Array.replicate size .unspecified

theorem permissive_passes (size : Nat) (attr : Attribute) : (permissive size).Passes attr := by
  intro policy covers
  have unspecified : policy = .unspecified := by
    simp only [Schema.policy?, permissive, Option.mem_def, Array.getElem?_replicate] at covers
    split at covers
    · cases covers
    · split at covers
      · cases covers
        rfl
      · cases covers
  rw [unspecified]
  rfl

theorem parse_encodeAll_trees {trees : List AttributeTree}
    (fit : ∀ tree ∈ trees, tree.size ≤ Attribute.maxSize) (size : Nat) :
    AttributeTable.parse (permissive size) (encodeAll trees) =
      .ok (.holding (permissive size) (trees.map toAttribute)) := by
  rw [← encodeAll_map_toAttribute]
  apply AttributeTable.parse_encodeAll
  · intro attr attr_mem
    rcases List.mem_map.mp attr_mem with ⟨tree, tree_mem, rfl⟩
    rw [size_toAttribute]
    exact fit tree tree_mem
  · exact fun attr _ => permissive_passes size attr

theorem get?_holding_permissive {kind size : Nat} (positive : 0 < kind) (covered : kind < size)
    (trees : List AttributeTree) :
    (AttributeTable.holding (permissive size) (trees.map toAttribute)).get? kind =
      (lastOfKind? kind trees).map payload := by
  have covers : ((permissive size).policy? kind).isSome = true := by
    rw [Schema.isSome_policy?_iff]
    exact ⟨positive, by rwa [permissive, Array.size_replicate]⟩
  rw [AttributeTable.get?_holding_of_covered covers, lastPayload?_map_toAttribute]

/-- Writing a forest succeeds if and only if every attribute in it fits its length field and its
padded trees fit the budget, and gives their encodings one after the other.  Then each of its levels
is read back: under every kind is found what the last tree of that kind holds, and words and texts
are found as the word or text that was written. -/
theorem writeAll_parse (limit : Nat) (forest : List AttributeTree) :
    (Write.bytesWithin limit (writeAll forest) =
      if (∀ tree ∈ allSubtrees forest, tree.size ≤ Attribute.maxSize) ∧
          totalSize forest ≤ limit then
        .ok (encodeAll forest)
      else
        .error .noSpace) ∧
    ∀ bytes, Write.bytesWithin limit (writeAll forest) = .ok bytes →
      ∀ level, IsLevel forest level → ∀ size, ∃ table,
        AttributeTable.parse (permissive size) (encodeAll level) = .ok table ∧
          ∀ kind, 0 < kind → kind < size →
            table.get? kind = (lastOfKind? kind level).map payload ∧
            (∀ type number, lastOfKind? kind level = some (word type number) →
              table.word? kind = some number) ∧
            ∀ type content, lastOfKind? kind level = some (text type content) →
              table.text? kind = .ok (some content) := by
  refine ⟨bytesWithin_writeAll limit forest, ?_⟩
  intro bytes written level isLevel size
  rw [bytesWithin_writeAll] at written
  split at written
  · next fits =>
      have levelFits : ∀ tree ∈ level, tree.size ≤ Attribute.maxSize :=
        fun tree tree_mem => fits.1 tree (isLevel.mem_allSubtrees tree_mem)
      refine ⟨_, parse_encodeAll_trees levelFits size, ?_⟩
      intro kind positive covered
      have found := get?_holding_permissive positive covered level
      refine ⟨found, ?_, ?_⟩
      · intro type number last
        rw [last] at found
        exact AttributeTable.word?_of_get? found
      · intro type content last
        rw [last] at found
        exact AttributeTable.text?_of_get? found
  · cases written

/-- Two words of one kind and a text that ends in NUL, nested behind an empty text: the encoding
takes 36 bytes, so a budget of 35 is too small, and in the nested level the second word and the
whole text are found. -/
theorem writeAll_parse_nested :
    let children := [word 3 7, word 0x8003 9, text 4 "a\x00"]
    let forest := [text 1 "", nest 0x4002 children]
    Write.bytesWithin 36 (writeAll forest) = .ok (encodeAll forest) ∧
      Write.bytesWithin 35 (writeAll forest) = .error .noSpace ∧
      ∃ table, AttributeTable.parse (permissive 5) (encodeAll children) = .ok table ∧
        table.word? 3 = some 9 ∧ table.text? 4 = .ok (some "a\x00") := by
  intro children forest
  have enough : Write.bytesWithin 36 (writeAll forest) = .ok (encodeAll forest) :=
    (writeAll_parse 36 forest).1.trans (if_pos (by decide +kernel))
  have tooLittle : Write.bytesWithin 35 (writeAll forest) = .error .noSpace :=
    (writeAll_parse 35 forest).1.trans (if_neg (by decide +kernel))
  have nested : IsLevel forest children :=
    Or.inr ⟨0x4002, by simp [forest, allSubtrees, subtrees]⟩
  rcases (writeAll_parse 36 forest).2 _ enough children nested 5 with ⟨table, parsed, reads⟩
  exact ⟨enough, tooLittle, table, parsed,
    (reads 3 (by decide) (by decide)).2.1 0x8003 9 rfl,
    (reads 4 (by decide) (by decide)).2.2 4 "a\x00" rfl⟩

end AttributeTree

end PacketExpr

import GraduatedFit.Proofs.Results
import GraduatedFit.Graph.Layout

/-! The columns of a layout: a block for each name that a factor refers to, one after the other. -/

namespace GraduatedFit

section Names

theorem mem_insertName {name other : String} {names : List String} :
    other ∈ insertName name names ↔ other = name ∨ other ∈ names := by
  induction names with
  | nil => simp [insertName]
  | cons first rest ih =>
      rw [insertName]
      split
      · exact List.mem_cons
      · split
        · rename_i same
          simp [same]
        · rw [List.mem_cons, ih, List.mem_cons, or_left_comm]

theorem insertName_increasing {name : String} {names : List String} (increasing : names.Pairwise (· < ·)) :
    (insertName name names).Pairwise (· < ·) := by
  induction names with
  | nil => simp [insertName]
  | cons first rest ih =>
      obtain ⟨below, later⟩ := List.pairwise_cons.mp increasing
      rw [insertName]
      split
      · rename_i before
        refine List.pairwise_cons.mpr ⟨?_, increasing⟩
        intro other member
        rcases List.mem_cons.mp member with rfl | member
        · exact before
        · exact String.lt_trans before (below other member)
      · split
        · exact increasing
        · rename_i after different
          refine List.pairwise_cons.mpr ⟨?_, ih later⟩
          intro other member
          rcases mem_insertName.mp member with rfl | member
          · exact Std.lt_of_le_of_ne (String.not_lt.mp after) (Ne.symm different)
          · exact below other member

theorem mem_sortedNames {name : String} {names : List String} : name ∈ sortedNames names ↔ name ∈ names := by
  induction names with
  | nil => rfl
  | cons first rest ih => rw [sortedNames, List.foldr_cons, mem_insertName, List.mem_cons, ← ih, sortedNames]

theorem sortedNames_increasing (names : List String) : (sortedNames names).Pairwise (· < ·) := by
  induction names with
  | nil => exact .nil
  | cons first rest ih => exact insertName_increasing ih

/-- Sorted names depend on which names there are only. -/
theorem sortedNames_congr {names names' : List String} (members : ∀ name, name ∈ names ↔ name ∈ names') :
    sortedNames names = sortedNames names' := by
  have different (names : List String) : (sortedNames names).Nodup :=
    (sortedNames_increasing names).imp String.ne_of_lt
  refine List.Perm.eq_of_pairwise ?_ (sortedNames_increasing names) (sortedNames_increasing names')
    ((List.perm_ext_iff_of_nodup (different _) (different _)).mpr fun name => ?_)
  · intro a b _ _ before after
    exact absurd after (String.lt_asymm before)
  · rw [mem_sortedNames, mem_sortedNames]
    exact members name

end Names

/-- The dimension of a variable, or zero without one. -/
def Values.sizeOf {K : Type} (values : Values K) (key : String) : Nat := (values.dim? key).getD 0

theorem Values.find_ok_iff {K : Type} {values : Values K} {key : String} {value : Vec K} :
    values.find key = .ok value ↔ values.get? key = some value := by
  unfold find
  split
  · rename_i found
    rw [found, Option.some.injEq, Except.ok.injEq]
  · rename_i missing
    rw [missing]
    exact iff_of_false (fun failed => by cases failed) (fun found => by cases found)

theorem Values.sizeOf_find {K : Type} {values : Values K} {key : String} {value : Vec K}
    (found : values.find key = .ok value) : values.sizeOf key = value.length := by
  rw [sizeOf, dim?, find_ok_iff.mp found]
  rfl

theorem Values.sizes_find {K : Type} {values : Values K} {keys : List String} {params : List (Vec K)}
    (found : keys.mapM values.find = .ok params) : params.map List.length = keys.map values.sizeOf := by
  have related := Result.mapM_ok_iff.mp found
  clear found
  induction related with
  | nil => rfl
  | cons first rest ih => rw [List.map_cons, List.map_cons, ih, sizeOf_find first]

theorem Values.find_exists {K : Type} {values : Values K} {key : String} (present : values.contains key = true) :
    ∃ value, values.find key = .ok value := by
  obtain ⟨value, found⟩ := Option.isSome_iff_exists.mp present
  exact ⟨value, find_ok_iff.mpr found⟩

namespace Layout

section Blocks

variable {key : String} {blocks : List (String × Nat)}

theorem startIn_absent (absent : key ∉ blocks.map Prod.fst) : startIn key blocks = none := by
  induction blocks with
  | nil => rfl
  | cons block blocks ih =>
      simp only [List.map_cons, List.mem_cons, not_or] at absent
      rw [startIn, if_neg (Ne.symm absent.1), ih absent.2]
      rfl

/-- A block begins where the blocks before it end. -/
theorem startIn_getElem (different : (blocks.map Prod.fst).Nodup) {i : Nat} (inside : i < blocks.length) :
    startIn blocks[i].1 blocks = some ((blocks.take i).map Prod.snd).sum := by
  induction blocks generalizing i with
  | nil => cases inside
  | cons block blocks ih =>
      obtain ⟨absent, later⟩ := List.nodup_cons.mp different
      cases i with
      | zero => exact if_pos rfl
      | succ i =>
          have bound : i < blocks.length := Nat.lt_of_succ_lt_succ inside
          have other : block.1 ≠ blocks[i].1 := by
            intro same
            exact absent (List.mem_map.mpr ⟨blocks[i], List.getElem_mem bound, same.symm⟩)
          rw [List.getElem_cons_succ, startIn, if_neg other, ih later bound]
          simp

/-- The column at an offset into a block. -/
def Holds (blocks : List (String × Nat)) (key : String) (offset column : Nat) : Prop :=
  ∃ start size, startIn key blocks = some start ∧ (key, size) ∈ blocks ∧ offset < size ∧ column = start + offset

theorem holds_cons {block : String × Nat} (absent : block.1 ∉ blocks.map Prod.fst) {offset column : Nat} :
    Holds (block :: blocks) key offset column ↔
      (key = block.1 ∧ offset = column ∧ column < block.2) ∨
        (block.2 ≤ column ∧ Holds blocks key offset (column - block.2)) := by
  constructor
  · rintro ⟨start, size, begins, member, inside, rfl⟩
    rw [startIn] at begins
    split at begins
    · rename_i same
      obtain rfl := Option.some.inj begins
      have size_eq : size = block.2 := by
        rcases List.mem_cons.mp member with rfl | later
        · rfl
        · exact absurd (List.mem_map.mpr ⟨_, later, same.symm⟩) absent
      exact .inl ⟨same.symm, (Nat.zero_add _).symm, by omega⟩
    · rename_i other
      obtain ⟨before, found, rfl⟩ := Option.map_eq_some_iff.mp begins
      have later : (key, size) ∈ blocks := by
        rcases List.mem_cons.mp member with rfl | later
        · exact absurd rfl other
        · exact later
      exact .inr ⟨by omega, before, size, found, later, inside, by omega⟩
  · rintro (⟨rfl, rfl, inside⟩ | ⟨after, start, size, begins, member, inside, place⟩)
    · exact ⟨0, block.2, if_pos rfl, .head _, inside, (Nat.zero_add _).symm⟩
    · have other : block.1 ≠ key := by
        rintro rfl
        exact absent (List.mem_map.mpr ⟨_, member, rfl⟩)
      refine ⟨block.2 + start, size, ?_, .tail _ member, inside, by omega⟩
      rw [startIn, if_neg other, begins]
      rfl

/-- The blocks share no column, and together they hold every column up to the sum of their sizes and no other. -/
theorem holds_unique (different : (blocks.map Prod.fst).Nodup) (column : Nat) :
    (column < (blocks.map Prod.snd).sum → ∃ key offset, Holds blocks key offset column) ∧
      ∀ key offset key' offset', Holds blocks key offset column → Holds blocks key' offset' column →
        column < (blocks.map Prod.snd).sum ∧ key = key' ∧ offset = offset' := by
  induction blocks generalizing column with
  | nil =>
      constructor
      · intro inside
        cases inside
      · rintro key offset key' offset' ⟨start, size, -, member, -⟩
        cases member
  | cons block blocks ih =>
      obtain ⟨absent, later⟩ := List.nodup_cons.mp different
      obtain ⟨found, unique⟩ := ih later (column - block.2)
      rw [List.map_cons, List.sum_cons]
      constructor
      · intro inside
        by_cases first : column < block.2
        · exact ⟨block.1, column, (holds_cons absent).mpr (.inl ⟨rfl, rfl, first⟩)⟩
        · obtain ⟨key, offset, holds⟩ := found (by omega)
          exact ⟨key, offset, (holds_cons absent).mpr (.inr ⟨by omega, holds⟩)⟩
      · intro key offset key' offset' one other
        rcases (holds_cons absent).mp one with ⟨rfl, rfl, first⟩ | ⟨after, one⟩
        · rcases (holds_cons absent).mp other with ⟨rfl, rfl, -⟩ | ⟨after, -⟩
          · exact ⟨by omega, rfl, rfl⟩
          · omega
        · rcases (holds_cons absent).mp other with ⟨rfl, rfl, first⟩ | ⟨-, other⟩
          · omega
          · obtain ⟨inside, same⟩ := unique key offset key' offset' one other
            exact ⟨by omega, same⟩

end Blocks

theorem totalDof_eq (layout : Layout) : layout.totalDof = (layout.blocks.map Prod.snd).sum := by
  unfold totalDof
  rw [List.sum_eq_foldr, List.foldr_map]

/-- The first column of a variable, or zero without one. -/
def startOf (layout : Layout) (key : String) : Nat := (layout.start? key).getD 0

end Layout

namespace Graph

variable {K : Type}

theorem names_of_blocks {values : Values K} {names : List String} {blocks : List (String × Nat)}
    (traversed : (names.mapM fun key => do return (key, (← values.find key).length)) = .ok blocks) :
    blocks.map Prod.fst = names := by
  have related := Result.mapM_ok_iff.mp traversed
  clear traversed
  induction related with
  | nil => rfl
  | cons head tail ih =>
      obtain ⟨value, -, done⟩ := Result.bind_ok_iff.mp head
      obtain rfl := Except.ok.inj done
      rw [List.map_cons, ih]

/-- The columns that a graph and an estimate lay out. -/
structure Columns (graph : Graph K) (values : Values K) (layout : Layout) : Prop where
  increasing : layout.order.Pairwise (· < ·)
  referenced : ∀ key, key ∈ layout.order ↔ ∃ f ∈ graph.factors, key ∈ f.keys
  sizes : ∀ block ∈ layout.blocks, values.dim? block.1 = some block.2
  starts : ∀ (i : Nat) (inside : i < layout.blocks.length),
    layout.start? layout.blocks[i].1 = some ((layout.blocks.take i).map Prod.snd).sum
  width : layout.totalDof = (layout.blocks.map Prod.snd).sum
  covered : ∀ column < layout.totalDof, ∃! place : String × Nat, Layout.Holds layout.blocks place.1 place.2 column
  inside : ∀ key offset column, Layout.Holds layout.blocks key offset column → column < layout.totalDof

/-- A layout lists the referenced variables in the order of their names, and their columns follow one another. -/
theorem layout_columns {graph : Graph K} {values : Values K} {layout : Layout}
    (laid : graph.layout values = .ok layout) : graph.Columns values layout := by
  simp only [Graph.layout, Result.bind_ok_iff, Result.pure_ok, Except.ok.injEq] at laid
  obtain ⟨blocks, traversed, rfl⟩ := laid
  have names := names_of_blocks traversed
  have increasing : (blocks.map Prod.fst).Pairwise (· < ·) := names ▸ sortedNames_increasing _
  have different : (blocks.map Prod.fst).Nodup := increasing.imp String.ne_of_lt
  refine ⟨increasing, ?_, ?_, ?_, Layout.totalDof_eq _, ?_, ?_⟩
  · intro key
    rw [Layout.order, names, variableNames, mem_sortedNames, List.mem_flatMap]
  · intro block member
    obtain ⟨key, -, measured⟩ := Result.mapM_mem traversed member
    obtain ⟨value, found, done⟩ := Result.bind_ok_iff.mp measured
    obtain rfl := Except.ok.inj done
    rw [Values.dim?, Values.find_ok_iff.mp found]
    rfl
  · intro i inside
    exact Layout.startIn_getElem different inside
  · intro column inside
    rw [Layout.totalDof_eq] at inside
    obtain ⟨found, unique⟩ := Layout.holds_unique different column
    obtain ⟨key, offset, holds⟩ := found inside
    refine ⟨(key, offset), holds, ?_⟩
    rintro ⟨key', offset'⟩ other
    obtain ⟨-, same, same'⟩ := unique _ _ _ _ other holds
    exact Prod.ext same same'
  · intro key offset column holds
    rw [Layout.totalDof_eq]
    exact ((Layout.holds_unique different column).2 _ _ _ _ holds holds).1

section Places

variable {graph : Graph K} {values : Values K} {layout : Layout}

theorem Columns.listed (columns : graph.Columns values layout) {f : GraphFactor K} (present : f ∈ graph.factors)
    {key : String} (member : key ∈ f.keys) : key ∈ layout.order :=
  (columns.referenced key).mpr ⟨f, present, member⟩

theorem Columns.block_mem (columns : graph.Columns values layout) {key : String} (member : key ∈ layout.order) :
    (key, values.sizeOf key) ∈ layout.blocks := by
  obtain ⟨⟨name, size⟩, present, rfl⟩ := List.mem_map.mp member
  rwa [Values.sizeOf, columns.sizes _ present]

theorem Columns.start_exists (columns : graph.Columns values layout) {key : String} (member : key ∈ layout.order) :
    layout.start? key = some (layout.startOf key) := by
  obtain ⟨i, inside, same⟩ := List.mem_iff_getElem.mp (columns.block_mem member)
  have begins := columns.starts i inside
  rw [same] at begins
  rw [Layout.startOf, begins]
  rfl

theorem Columns.block_inside (columns : graph.Columns values layout) {key : String} (member : key ∈ layout.order) :
    layout.startOf key + values.sizeOf key ≤ layout.totalDof := by
  obtain ⟨i, inside, same⟩ := List.mem_iff_getElem.mp (columns.block_mem member)
  have begins := columns.starts i inside
  rw [same, columns.start_exists member, Option.some.injEq] at begins
  have whole := List.sum_take_add_sum_drop (layout.blocks.map Prod.snd) i
  rw [← List.map_take, ← List.map_drop, List.drop_eq_getElem_cons inside, same, List.map_cons, List.sum_cons] at whole
  rw [columns.width, begins]
  omega

theorem Columns.contains (columns : graph.Columns values layout) {key : String} (member : key ∈ layout.order) :
    values.contains key = true := by
  have present := columns.sizes _ (columns.block_mem member)
  obtain ⟨value, found, -⟩ := Option.map_eq_some_iff.mp present
  rw [Values.contains, found]
  rfl

theorem Columns.holds (columns : graph.Columns values layout) {key : String} (member : key ∈ layout.order) {c : Nat}
    (inside : c < values.sizeOf key) : Layout.Holds layout.blocks key c (layout.startOf key + c) :=
  ⟨layout.startOf key, values.sizeOf key, columns.start_exists member, columns.block_mem member, inside, rfl⟩

theorem Columns.of_holds (columns : graph.Columns values layout) {key : String} {c column : Nat}
    (holds : Layout.Holds layout.blocks key c column) :
    key ∈ layout.order ∧ c < values.sizeOf key ∧ column = layout.startOf key + c := by
  obtain ⟨start, size, begins, member, inside, rfl⟩ := holds
  have sized : values.sizeOf key = size := by
    rw [Values.sizeOf, columns.sizes _ member]
    rfl
  have started : layout.startOf key = start := by
    rw [Layout.startOf, Layout.start?, begins]
    rfl
  exact ⟨List.mem_map.mpr ⟨_, member, rfl⟩, sized.symm ▸ inside, by rw [started]⟩

end Places

theorem layout_exists {graph : Graph K} {values : Values K}
    (known : ∀ f ∈ graph.factors, ∀ key ∈ f.keys, values.contains key = true) :
    ∃ layout, graph.layout values = .ok layout := by
  have each : ∀ key ∈ graph.variableNames, ∃ block : String × Nat,
      (do return (key, (← values.find key).length) : Result K (String × Nat)) = .ok block := by
    intro key member
    obtain ⟨f, present, referred⟩ := List.mem_flatMap.mp (mem_sortedNames.mp member)
    obtain ⟨value, found⟩ := Values.find_exists (known f present key referred)
    exact ⟨(key, value.length), by rw [found]; rfl⟩
  obtain ⟨blocks, traversed⟩ := Result.mapM_exists each
  exact ⟨⟨blocks⟩, by rw [Graph.layout, traversed]; rfl⟩

end Graph

end GraduatedFit

import TensorInference.Proofs.Binary.TotalOrder
import TensorInference.Proofs.Inference.Scores

/-!
# The best classes of batch items

Where a request asks for the best classes of an output, a completed response lists those of every
batch item: the elements of the item that come last in the total order of double precision, the
last one first, of elements with the same score the one with the lower place first. Nothing that is
left out outranks what is listed. How many elements an item has is found from what is stored, which
is the size of the shape unless the bytes of the batch do not fit into 64 bits.
Main statement: `topClasses_of_finalize`.
-/

namespace TensorInference

open Model Wire

namespace Tensor

variable {type : ElementType}

/-- A block of a list that is given by its places. -/
theorem block_map_range {α : Type} {f : Nat → α} {size count i : Nat}
    (h : (i + 1) * size ≤ count) : block size ((List.range count).map f) i =
      (List.range size).map fun k ↦ f (i * size + k) := by
  rw [Nat.succ_mul] at h
  refine List.ext_getElem ?_ fun k hk _ ↦ ?_
  · rw [block, List.length_take, List.length_drop, List.length_map, List.length_range,
      List.length_map, List.length_range]
    omega
  · simp [block]

/-- An element is scored by a pattern of double precision. -/
theorem score_lt_patterns {element : Nat} (h : element < modulus type) :
    score type element < Binary.double.patterns := by
  have hrounded (value : Int) : Binary.double.ofInt value < Binary.double.patterns :=
    Binary.Format.withSign_lt (Nat.lt_of_le_of_lt (Binary.Format.roundRatio_le_infinity _ _)
      Binary.Format.infinity_lt_signBit)
  unfold score
  split
  · exact hrounded _
  · exact hrounded _
  · rename_i format hformat
    obtain ⟨hprecision, hpatterns⟩ := modulus_of_real hformat
    split
    · rename_i hdouble
      rwa [hpatterns, hdouble] at h
    · exact Binary.Format.convert_lt hprecision (by decide) _

end Tensor

namespace Inference.Response

/-! ## The ranking of one item -/

/-- Whether one place of an item outranks another: its score comes later in the total order, or the
scores are the same and its place is the lower one. -/
def Outranks (score : Nat → Nat) (i j : Nat) : Prop :=
  Binary.double.TotallyPrecedes (score j) (score i) ∨ (score i = score j ∧ i < j)

/-- The entry that lists a place of an item. -/
def listed (label : Nat → String) (score : Nat → Nat) (index : Nat) : ClassScore where
  index := UInt32.ofNat index
  score := UInt32.ofNat (Binary.double.convert Binary.single (score index))
  label := label index

/-- What it is for entries to be the best classes of an item of a size. -/
structure TopClasses (count size : Nat) (score : Nat → Nat) (names : Option (List String))
    (classes : List ClassScore) : Prop where
  length : classes.length = min count size
  distinct : (classes.map (·.index)).Nodup
  inside : ∀ entry ∈ classes, entry.index.toNat < size
  ranked : classes.Pairwise fun first second ↦
    Outranks score first.index.toNat second.index.toNat
  /-- What is not listed comes after everything that is. -/
  leftOut : ∀ index < size, (∀ entry ∈ classes, entry.index.toNat ≠ index) →
    ∀ entry ∈ classes, Outranks score entry.index.toNat index
  /-- An entry has the score of its place, in single precision. -/
  scored : ∀ entry ∈ classes, entry.score =
    UInt32.ofNat (Binary.double.convert Binary.single (score entry.index.toNat))
  /-- It has the label at its place in the list of labels, -/
  labelled : ∀ entry ∈ classes, ∀ labels name, names = some labels →
    labels[entry.index.toNat]? = some name → entry.label = name
  /-- and the empty one beyond that list or if there is none. -/
  unlabelled : ∀ entry ∈ classes,
    (∀ labels, names = some labels → labels.length ≤ entry.index.toNat) → entry.label = ""

variable {score : Nat → Nat} {label : Nat → String} {count size : Nat}

theorem Ranked.precedes_trans (a b c : Ranked) (hab : a.precedes b = true)
    (hbc : b.precedes c = true) : a.precedes c = true := by
  simp only [Ranked.precedes, Bool.or_eq_true, Bool.and_eq_true, decide_eq_true_eq] at hab hbc ⊢
  omega

theorem Ranked.precedes_total (a b : Ranked) : (a.precedes b || b.precedes a) = true := by
  simp only [Ranked.precedes, Bool.or_eq_true, Bool.and_eq_true, decide_eq_true_eq]
  omega

/-- Of two places the one that comes first in the ranking outranks the other. -/
theorem outranks_of_precedes {i j : Nat} (hi : score i < Binary.double.patterns)
    (hj : score j < Binary.double.patterns) (hne : i ≠ j)
    (h : Ranked.precedes ⟨i, score i⟩ ⟨j, score j⟩ = true) : Outranks score i j := by
  simp only [Ranked.precedes, Bool.or_eq_true, Bool.and_eq_true, decide_eq_true_eq] at h
  rcases h with hlater | ⟨hsame, hle⟩
  · exact .inl (Binary.Format.totallyPrecedes_iff.2 hlater)
  · exact .inr ⟨Binary.Format.totalKey_inj hi hj hsame, Nat.lt_of_le_of_ne hle hne⟩

/-- The best classes are the first of all places in their ranking. -/
theorem exists_bestClasses_eq (hscore : ∀ index < size, score index < Binary.double.patterns) :
    ∃ order : List Nat, order.Perm (List.range size) ∧ order.Pairwise (Outranks score) ∧
      bestClasses count label ((List.range size).map score) =
        (order.take count).map (listed label score) := by
  have hplaces : ((List.range size).map score).mapIdx Ranked.mk =
      (List.range size).map fun index ↦ ⟨index, score index⟩ :=
    List.ext_getElem (by simp) fun index _ _ ↦ by simp
  have hperm := List.mergeSort_perm (((List.range size).map score).mapIdx Ranked.mk) Ranked.precedes
  have hsorted := List.pairwise_mergeSort Ranked.precedes_trans Ranked.precedes_total
    (((List.range size).map score).mapIdx Ranked.mk)
  rw [bestClasses]
  generalize (((List.range size).map score).mapIdx Ranked.mk).mergeSort Ranked.precedes = ranked
    at hperm hsorted ⊢
  rw [hplaces] at hperm
  -- The ranking holds every place of the item once, with its score.
  have horder : (ranked.map (·.index)).Perm (List.range size) := by
    simpa [Function.comp_def] using hperm.map (·.index)
  have hranked : (ranked.map (·.index)).map (fun index ↦ Ranked.mk index (score index)) =
      ranked := by
    rw [List.map_map]
    refine (List.map_congr_left fun element helement ↦ ?_).trans (List.map_id ranked)
    obtain ⟨index, -, rfl⟩ := List.mem_map.1 (hperm.mem_iff.1 helement)
    rfl
  generalize ranked.map (·.index) = order at horder hranked
  subst hranked
  refine ⟨order, horder, ?_, by rw [← List.map_take, List.map_map]; rfl⟩
  have hbound (index : Nat) (h : index ∈ order) : score index < Binary.double.patterns :=
    hscore index (List.mem_range.1 (horder.mem_iff.1 h))
  have hdistinct : order.Pairwise (· ≠ ·) := horder.nodup_iff.2 List.nodup_range
  refine ((List.pairwise_map.1 hsorted).and hdistinct).imp_of_mem fun hi hj h ↦ ?_
  exact outranks_of_precedes (hbound _ hi) (hbound _ hj) h.2 h.1

/-- The entries listed for the best classes are the top classes. -/
theorem topClasses_bestClasses {labels : Labels} {name : String} (hsize : size < 2 ^ 32)
    (hscore : ∀ index < size, score index < Binary.double.patterns) :
    TopClasses count size score (labels.table.get? name)
      (bestClasses count (labels.label name) ((List.range size).map score)) := by
  obtain ⟨order, hperm, hranked, heq⟩ := exists_bestClasses_eq hscore
  rw [heq]
  have hlt (index : Nat) (h : index ∈ order.take count) : index < size :=
    List.mem_range.1 (hperm.mem_iff.1 (List.mem_of_mem_take h))
  have hindex (index : Nat) (h : index ∈ order.take count) :
      (listed (labels.label name) score index).index.toNat = index :=
    UInt32.toNat_ofNat_of_lt' ((hlt index h).trans hsize)
  refine ⟨?_, ?_, List.forall_mem_map.2 fun index h ↦ ?_, ?_, ?_,
    List.forall_mem_map.2 fun index h ↦ ?_, List.forall_mem_map.2 fun index h ↦ ?_,
    List.forall_mem_map.2 fun index h ↦ ?_⟩
  · rw [List.length_map, List.length_take, hperm.length_eq, List.length_range]
  · rw [List.map_map]
    have hnodup : (order.take count).Nodup :=
      (hperm.nodup_iff.2 List.nodup_range).sublist (List.take_sublist ..)
    refine hnodup.map_on fun i hi j hj hsame ↦ ?_
    rw [← hindex i hi, ← hindex j hj]
    exact congrArg UInt32.toNat hsame
  · rw [hindex index h]
    exact hlt index h
  · refine List.pairwise_map.2 ((hranked.sublist (List.take_sublist ..)).imp_of_mem
      fun hi hj h ↦ ?_)
    rwa [hindex _ hi, hindex _ hj]
  · intro index hsmall hout
    rw [← List.take_append_drop count order, List.pairwise_append] at hranked
    have hmem := hperm.mem_iff.2 (List.mem_range.2 hsmall)
    rw [← List.take_append_drop count order, List.mem_append] at hmem
    have hdrop : index ∈ order.drop count := hmem.resolve_left fun htake ↦
      List.forall_mem_map.1 hout index htake (hindex index htake)
    refine List.forall_mem_map.2 fun i hi ↦ ?_
    rw [hindex i hi]
    exact hranked.2.2 i hi index hdrop
  · rw [hindex index h]
    rfl
  · rw [hindex index h]
    exact fun _ _ hnames ↦ Labels.label_of_getElem? hnames
  · rw [hindex index h]
    exact Labels.label_of_length_le

end Inference.Response

/-! ## Every item of an output -/

namespace Inference

/-- How many elements are stored. -/
def OutputTensor.elementCount (tensor : OutputTensor) (type : ElementType) : Nat :=
  tensor.data.length / type.width

/-- How many elements there are for each item of a batch. -/
def OutputTensor.perItem (tensor : OutputTensor) (type : ElementType) (batch : Nat) : Nat :=
  tensor.elementCount type / batch

/-- How many elements are taken for an item, which is one at least. -/
def OutputTensor.itemSize (tensor : OutputTensor) (type : ElementType) (batch : Nat) : Nat :=
  max 1 (tensor.perItem type batch)

/-- The score at a place of an item, if items have so many elements. -/
def OutputTensor.score (tensor : OutputTensor) (type : ElementType) (size item place : Nat) : Nat :=
  Tensor.score type (Tensor.element type.width tensor.data (item * size + place))

namespace OutputTensor

variable {tensor : OutputTensor} {type : ElementType} {batch : UInt32} {items : Nat}

/-- If the bytes of the shape fit into 64 bits, all its elements are stored for every item. -/
theorem elementCount_eq
    (hlength : tensor.data.length = exactBytes batch type tensor.shape % 2 ^ 64)
    (hfits : exactBytes batch type tensor.shape < 2 ^ 64) :
    tensor.elementCount type = batch.toNat * tensor.shape.volume := by
  rw [elementCount, hlength, Nat.mod_eq_of_lt hfits, exactBytes,
    Nat.mul_div_cancel _ type.width_pos]

theorem perItem_eq_volume (hbatch : 0 < batch.toNat)
    (hlength : tensor.data.length = exactBytes batch type tensor.shape % 2 ^ 64)
    (hfits : exactBytes batch type tensor.shape < 2 ^ 64) :
    tensor.perItem type batch.toNat = tensor.shape.volume := by
  rw [perItem, elementCount_eq hlength hfits, Nat.mul_div_cancel_left _ hbatch]

theorem le_elementCount_of_perItem (h : 1 ≤ tensor.perItem type items) :
    items ≤ tensor.elementCount type :=
  (Nat.div_pos_iff.1 h).2

/-- As many items as there are, though no more than are elements, lie within the elements. -/
theorem items_le_elementCount {i : Nat} (h : i < min items (tensor.elementCount type)) :
    (i + 1) * tensor.itemSize type items ≤ tensor.elementCount type := by
  obtain ⟨hitem, helement⟩ := Nat.lt_min.1 h
  rw [itemSize]
  rcases Nat.eq_zero_or_pos (tensor.perItem type items) with hnone | hsome
  · rw [hnone, Nat.max_eq_left (Nat.zero_le 1), Nat.mul_one]
    exact helement
  · rw [Nat.max_eq_right hsome]
    calc
      (i + 1) * tensor.perItem type items ≤ items * tensor.perItem type items :=
        Nat.mul_le_mul_right _ hitem
      _ ≤ tensor.elementCount type := Nat.mul_div_le _ _

end OutputTensor

namespace Response

variable {labels : Labels} {want : WantedOutput} {count : UInt32} {tensor : OutputTensor}
  {config : Config} {header : RequestHeader} {response fresh final : Response}

/-- The classes of a tensor, item by item, from its elements. There are no more items than
elements. -/
def classesOf (label : Nat → String) (batch count : Nat) (type : ElementType)
    (tensor : OutputTensor) : List (List ClassScore) :=
  (List.range (min batch (tensor.elementCount type))).map fun i ↦ bestClasses count label
    ((List.range (tensor.itemSize type batch)).map
      (tensor.score type (tensor.itemSize type batch) i))

theorem length_classesOf {label : Nat → String} {batch count : Nat} {type : ElementType} :
    (classesOf label batch count type tensor).length = min batch (tensor.elementCount type) := by
  rw [classesOf, List.length_map, List.length_range]

theorem classify_eq_classesOf {batch : Nat} : classify labels batch want count tensor.data =
    classesOf (labels.label want.name) batch count.toNat want.type tensor := by
  rw [classify, Tensor.read_eq_map, List.map_map, batchItems, Tensor.groups_eq_map, List.map_map,
    List.length_map, List.length_range, classesOf]
  refine List.map_congr_left fun i hi ↦ congrArg (bestClasses _ _) ?_
  exact Tensor.block_map_range (OutputTensor.items_le_elementCount (List.mem_range.1 hi))

/-- A batch of no items is completed like one of a single item, but then nothing is stored. -/
theorem classes_describeTensor (hcount : want.classes = some count)
    (hlength : tensor.data.length =
      exactBytes response.header.batch want.type tensor.shape % 2 ^ 64) :
    (response.describeTensor want tensor).classes = classesOf (response.labels.label want.name)
      response.header.batch.toNat count.toNat want.type tensor := by
  rw [classes_describeTensor_of_some hcount, classify_eq_classesOf]
  rcases Nat.eq_zero_or_pos response.header.batch.toNat with hbatch | hbatch
  · have hnone : tensor.elementCount want.type = 0 := by
      rw [OutputTensor.elementCount, hlength, exactBytes, hbatch, Nat.zero_mul, Nat.zero_mul,
        Nat.zero_mod, Nat.zero_div]
    rw [classesOf, classesOf, hnone, Nat.min_zero, Nat.min_zero, List.range_zero, List.map_nil,
      List.map_nil]
  · rw [Nat.max_eq_right hbatch]

/-- How a completed response lists the classes of an output: those of the tensor that is stored. -/
structure Lists (config : Config) (header : RequestHeader) (labels : Labels) (final : Response)
    (name : String) (count : UInt32) (described : Output) (tensor : OutputTensor)
    (entry : ResponseOutput) : Prop where
  found : config.findOutput name = some described
  stored : final.outputs.get? name = some tensor
  shape : ∀ size ∈ tensor.shape, 0 ≤ size
  length : tensor.data.length = exactBytes header.batch described.type tensor.shape % 2 ^ 64
  named : entry.name = name
  raw : entry.raw = none
  classes : entry.classes =
    classesOf (labels.label name) header.batch.toNat count.toNat described.type tensor

/-- Every output of which the classes were asked for is described by the tensor that is stored.
Operations leave the labels and the batch as they were when the response was created. -/
theorem lists_of_finalize {version : UInt64}
    (hcreate : create header config version labels = .ok fresh) (operations : List Operation)
    (hfinal : (fresh.performAll operations).finalize = .ok final) :
    List.Forall₂ (fun asked entry ↦ ∀ count, asked.2 = some count →
        ∃ described tensor, Lists config header labels final asked.1 count described tensor entry)
      (askedOutputs config header) final.header.outputs := by
  have hunderWay := (underWay_of_create hcreate).performAll operations
  have hlabels : (fresh.performAll operations).labels = labels :=
    (performAll_labels operations).trans (labels_of_create hcreate)
  obtain ⟨hentries, hresult⟩ := finalize_eq_ok_iff.1 hfinal
  generalize fresh.performAll operations = response at *
  generalize final.header.outputs = entries at *
  subst hresult
  rw [← map_wanted hunderWay.wanted, List.forall₂_map_left_iff]
  refine (SideBySide.mem_left hentries).imp ?_
  rintro ⟨name, type, classes⟩ entry ⟨hwant, tensor, htensor, rfl⟩ count hcount
  obtain rfl : classes = some count := hcount
  obtain ⟨output, -, -, rfl, described, hfind, rfl⟩ :=
    exists_of_wantOutputs hunderWay.wanted hwant (Option.some_ne_none _)
  obtain ⟨htaken, -⟩ := hunderWay.stored _ tensor htensor
  obtain ⟨found, hfound, hlength⟩ := htaken.length
  obtain rfl := Option.some.inj (hfound.symm.trans hfind)
  refine ⟨found, tensor, hfind, htensor, htaken.shape, hlength, describeTensor_name, ?_, ?_⟩
  · rw [describeTensor_raw, if_neg (Option.some_ne_none count)]
  · rw [← hunderWay.batch, ← hlabels] at *
    exact classes_describeTensor rfl hlength

namespace Lists

variable {name : String} {described : Output} {entry : ResponseOutput}

theorem length_classes (h : Lists config header labels final name count described tensor entry) :
    entry.classes.length = min header.batch.toNat (tensor.elementCount described.type) := by
  rw [h.classes, length_classesOf]

theorem length_classes_of_fits
    (h : Lists config header labels final name count described tensor entry)
    (hfits : exactBytes header.batch described.type tensor.shape < 2 ^ 64)
    (hvolume : tensor.shape.volume ≠ 0) : entry.classes.length = header.batch.toNat := by
  rw [h.length_classes, OutputTensor.elementCount_eq h.length hfits]
  exact Nat.min_eq_left (Nat.le_mul_of_pos_right _ (Nat.pos_of_ne_zero hvolume))

end Lists

/-- What the entry of an output lists for a batch whose items have so many elements: the best
classes of every item. -/
structure ListsBest (batch count size : Nat) (type : ElementType) (names : Option (List String))
    (tensor : OutputTensor) (entry : ResponseOutput) : Prop where
  length : entry.classes.length = batch
  top : ∀ i classes, entry.classes[i]? = some classes →
    TopClasses count size (tensor.score type size i) names classes

theorem Lists.listsBest {name : String} {described : Output} {entry : ResponseOutput}
    (h : Lists config header labels final name count described tensor entry)
    (hsome : 1 ≤ tensor.perItem described.type header.batch.toNat)
    (hsize : tensor.perItem described.type header.batch.toNat < 2 ^ 32) :
    ListsBest header.batch.toNat count.toNat (tensor.perItem described.type header.batch.toNat)
      described.type (labels.table.get? name) tensor entry where
  length := by
    rw [h.length_classes]
    exact Nat.min_eq_left (OutputTensor.le_elementCount_of_perItem hsome)
  top i classes hclasses := by
    rw [h.classes, classesOf, List.getElem?_map] at hclasses
    obtain ⟨_, hitem, rfl⟩ := Option.map_eq_some_iff.1 hclasses
    obtain ⟨_, rfl⟩ := List.getElem?_eq_some_iff.1 hitem
    rw [List.getElem_range, OutputTensor.itemSize, Nat.max_eq_right hsome]
    exact topClasses_bestClasses hsize fun _ _ ↦
      Tensor.score_lt_patterns (Tensor.element_lt_modulus _ _)

/-- How a completed response answers what was asked for, where it is the best classes of an output:
the entry lists those of the tensor that is stored, for every item of the batch, as soon as there
is an element for each of them. If there is not, every element makes a list. -/
def Classifies (config : Config) (header : RequestHeader) (labels : Labels) (final : Response)
    (asked : String × Option UInt32) (entry : ResponseOutput) : Prop :=
  ∀ count, asked.2 = some count → ∃ described tensor,
    config.findOutput asked.1 = some described ∧ final.outputs.get? asked.1 = some tensor ∧
      tensor.data.length = exactBytes header.batch described.type tensor.shape % 2 ^ 64 ∧
      (exactBytes header.batch described.type tensor.shape < 2 ^ 64 →
        tensor.perItem described.type header.batch.toNat = tensor.shape.volume) ∧
      entry.name = asked.1 ∧
      (1 ≤ tensor.perItem described.type header.batch.toNat →
        tensor.perItem described.type header.batch.toNat < 2 ^ 32 →
          ListsBest header.batch.toNat count.toNat
            (tensor.perItem described.type header.batch.toNat) described.type
            (labels.table.get? asked.1) tensor entry) ∧
      (tensor.perItem described.type header.batch.toNat = 0 →
        entry.classes.length = tensor.elementCount described.type)

/-- A completed response lists the best classes of every batch item of every output of which they
were asked for, whatever happened to it before. An item has its share of the elements that are
stored, which are as many as its shape has if the bytes of the whole batch fit into 64 bits. -/
theorem topClasses_of_finalize {version : UInt64}
    (hcreate : create header config version labels = .ok fresh) (operations : List Operation)
    (hfinal : (fresh.performAll operations).finalize = .ok final)
    (hbatch : 1 ≤ header.batch.toNat) :
    List.Forall₂ (Classifies config header labels final) (askedOutputs config header)
      final.header.outputs := by
  refine (lists_of_finalize hcreate operations hfinal).imp fun asked entry hlists count hcount ↦ ?_
  obtain ⟨described, tensor, h⟩ := hlists count hcount
  refine ⟨described, tensor, h.found, h.stored, h.length,
    OutputTensor.perItem_eq_volume hbatch h.length, h.named, h.listsBest, fun hnone ↦ ?_⟩
  rw [h.length_classes]
  exact Nat.min_eq_right (Nat.div_eq_zero_iff_lt hbatch |>.1 hnone).le

/-- A request for the best two of the scores of two items. -/
def bestTwo : RequestHeader where
  id := 0
  batch := 2
  inputs := []
  outputs := [{ name := "scores", classes := some 2 }]

/-- The response to the request with the labels of the model, the outputs that are there and their
descriptions. -/
def listing (labels : Labels) (outputs : OrderedMap String OutputTensor)
    (described : List ResponseOutput) : Response where
  header := { id := 0, model := "marking", version := 1, batch := 2, outputs := described }
  wanted := [{ name := "scores", type := .fp32, classes := some 2 }]
  outputs
  labels

/-- What is no number and two ones, and then both zeros and a negative number. -/
def sixScores : OutputTensor where
  shape := [3]
  data := Tensor.write 4 [0x7fc00000, 0x3f800000, 0x3f800000, 0, 0x80000000, 0xbf800000]

/-- A label for the first of the scores and none for the others. -/
def firstNamed : Labels :=
  .insert .empty "scores" ["cat"]

/-- The best two of both items: what is no number comes before the ones, and zero before minus
zero. -/
def sixRanked : List (List ClassScore) :=
  [[⟨0, 0x7fc00000, "cat"⟩, ⟨1, 0x3f800000, ""⟩], [⟨0, 0, "cat"⟩, ⟨1, 0x80000000, ""⟩]]

/-- The second one and the negative number are left out. -/
theorem topClasses_of_finalize_bestTwo :
    create bestTwo marking 1 firstNamed = .ok (listing firstNamed .empty []) ∧
      ((listing firstNamed .empty []).performAll
          [.store "scores" sixScores.shape sixScores.data]).finalize =
        .ok (listing firstNamed (OrderedMap.empty.insert "scores" sixScores)
          [⟨"scores", none, sixRanked⟩]) ∧
      1 ≤ bestTwo.batch.toNat ∧
      List.Forall₂ (Classifies marking bestTwo firstNamed
          (listing firstNamed (OrderedMap.empty.insert "scores" sixScores)
            [⟨"scores", none, sixRanked⟩]))
        [("scores", some 2)] [⟨"scores", none, sixRanked⟩] := by
  have hcreate : create bestTwo marking 1 firstNamed = .ok (listing firstNamed .empty []) := rfl
  have hranked : sixRanked =
      [bestClasses 2 (firstNamed.label "scores")
          [0x7ff8000000000000, 0x3ff0000000000000, 0x3ff0000000000000],
        bestClasses 2 (firstNamed.label "scores")
          [0, 0x8000000000000000, 0xbff0000000000000]] := by
    rw [bestClasses_of_ranked (by decide), bestClasses_of_ranked (by decide)]
    rfl
  have hfinal : ((listing firstNamed .empty []).performAll
      [.store "scores" sixScores.shape sixScores.data]).finalize =
        .ok (listing firstNamed (OrderedMap.empty.insert "scores" sixScores)
          [⟨"scores", none, sixRanked⟩]) := by
    rw [hranked]
    rfl
  exact ⟨hcreate, hfinal, by decide, topClasses_of_finalize hcreate _ hfinal (by decide)⟩

end Response

end Inference

end TensorInference

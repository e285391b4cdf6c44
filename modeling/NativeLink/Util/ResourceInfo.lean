import NativeLink.Util.StoreTrait
import NativeLink.Lib.Decimal
import NativeLink.Lib.Text
import Mathlib

-- Model of `nativelink-util/src/resource_info.rs`, the parser and printer of ByteStream resource
-- names. `ResourceInfo::new` splits the name from the right into at most seven parts, walks left
-- to the `blobs` or `compressed-blobs` part in `recursive_parse` and fills the fields on the way
-- back; what lies before that part is the instance name, or for an upload
-- `{instance_name}/uploads/{uuid}`. The text is a list of characters and `bytes_processed` counts
-- characters: the counter only measures the suffix that was parsed, to cut it off again, so the
-- two counts cut at the same place.

namespace NativeLink

-- `ResourceInfo`, its fields as the text they were parsed from.
structure ResourceInfo where
  instanceName : List Char
  uuid : Option (List Char)
  compressor : Option (List Char)
  digestFunction : Option (List Char)
  hash : List Char
  size : List Char
  expectedSize : Nat
  optionalMetadata : Option (List Char)
  deriving DecidableEq, Repr

namespace ResourceInfo

instance : Inhabited ResourceInfo :=
  ⟨⟨[], none, none, none, [], [], 0, none⟩⟩

def errorMsg : String :=
  "Expected resource_name to be of pattern " ++
  "'\x7b?instance_name/\x7d(?uploads/\x7buuid\x7d/)blobs/\x7b?/digest_function\x7d\x7b/hash\x7d/\x7bsize\x7d\x7b?/optional_metadata\x7d' or " ++
  "'\x7b?instance_name/\x7d(?uploads/\x7buuid\x7d/)compressed-blobs\x7b?/compressor\x7d\x7b?/digest_function\x7d\x7b/hash\x7d/\x7bsize\x7d\x7b?/optional_metadata\x7d'"

def compressors : List (List Char) :=
  ["identity".toList, "zstd".toList, "deflate".toList, "brotli".toList]

def digestFunctions : List (List Char) :=
  ["sha256".toList, "sha1".toList, "md5".toList, "vso".toList, "sha384".toList, "sha512".toList,
    "murmur3".toList, "sha256tree".toList, "blake3".toList]

def slashSize : Nat := 1

def blobs : List Char := "blobs".toList
def compressedBlobs : List Char := "compressed-blobs".toList
def uploads : List Char := "uploads".toList

inductive State
  | unknown
  | compressor
  | digestFunction
  | hash
  | size
  | optionalMetadata
  deriving DecidableEq, Repr

def State.debug : State → String
  | .unknown => "Unknown"
  | .compressor => "Compressor"
  | .digestFunction => "DigestFunction"
  | .hash => "Hash"
  | .size => "Size"
  | .optionalMetadata => "OptionalMetadata"

-- The `State::Hash` arm, which `State::DigestFunction` also reaches for a part that is not a
-- digest function.
def hashPart (part : List Char) (output : ResourceInfo) (bytesProcessed : Nat) :
    Except Error (State × ResourceInfo × Nat) :=
  .ok (.size, { output with hash := part }, bytesProcessed + part.length + slashSize)

-- One round of the `loop` of `recursive_parse`: the part in the state the level to its left
-- returned, and the state for the level to its right.
def processPart (part : List Char) : State × ResourceInfo × Nat → Except Error (State × ResourceInfo × Nat)
  | (.unknown, _, _) => .error (makeInputErr "Unknown state should never be reached in ResourceInfo::new")
  | (.compressor, output, bytesProcessed) =>
    if part ∈ compressors then
      .ok (.digestFunction, { output with compressor := some part }, bytesProcessed + part.length + slashSize)
    else
      let partStr := String.ofList part
      .error (makeInputErr s!"Expected compressor, got {partStr}")
  | (.digestFunction, output, bytesProcessed) =>
    if part ∈ digestFunctions then
      .ok (.hash, { output with digestFunction := some part }, bytesProcessed + part.length + slashSize)
    else hashPart part output bytesProcessed
  | (.hash, output, bytesProcessed) => hashPart part output bytesProcessed
  | (.size, output, bytesProcessed) =>
    -- `parse::<usize>()`, a 64-bit `usize`; `{size}` is counted without a slash.
    match Decimal.parseUnsigned u64Max part with
    | .ok expectedSize =>
      .ok (.optionalMetadata, { output with size := part, expectedSize := expectedSize }, bytesProcessed + part.length)
    | .error _ =>
      let partStr := String.ofList part
      .error (makeInputErr s!"Digest size_bytes was not convertible to usize. Got: {partStr}")
  | (.optionalMetadata, output, bytesProcessed) =>
    .ok (.optionalMetadata, { output with optionalMetadata := some part }, bytesProcessed + part.length + slashSize)

-- `recursive_parse`: each level takes the next part from the right; while the state is unknown it
-- recurses until the `(compressed-)blobs` part, and then handles its own part on the way back.
def recursiveParse : List (List Char) → ResourceInfo → State → Nat → Except Error (State × ResourceInfo × Nat)
  | [], _, _, _ => .error ⟨.internal, ["on rparts.next()"]⟩
  | part :: rparts, output, state, bytesProcessed =>
    if state = .unknown then
      if part = blobs then .ok (.digestFunction, output, part.length + slashSize)
      else if part = compressedBlobs then .ok (.compressor, output, part.length + slashSize)
      else (recursiveParse rparts output state bytesProcessed).bind (processPart part)
    else processPart part (state, output, bytesProcessed)

-- `ResourceInfo::new`.
def new (resourceName : List Char) (isUpload : Bool) : Except Error ResourceInfo :=
  let name := String.ofList resourceName
  let rparts := Text.rsplitn '/' 7 resourceName
  match recursiveParse rparts default .unknown 0 with
  | .error e => .error (e.append s!"{errorMsg} in {name}")
  | .ok (endState, output, endBytesProcessed) =>
    if endState ≠ .optionalMetadata then
      let debug := endState.debug
      .error (makeInputErr
        s!"Expected the final state to be OptionalMetadata. Got: {debug} for {name} is_upload: {isUpload}")
    else
      let beginningPart :=
        if endBytesProcessed = resourceName.length then []
        else resourceName.take (resourceName.length - endBytesProcessed - slashSize)
      if !isUpload then .ok { output with instanceName := beginningPart }
      else
        match Text.rsplitn '/' 3 beginningPart with
        | [] => .error ⟨.internal, [s!"{errorMsg} in {name}"]⟩
        | [_] => .error ⟨.internal, [s!"{errorMsg} in {name}"]⟩
        | uuid :: part :: parts =>
          let output := { output with uuid := some uuid }
          if part ≠ uploads then
            let partStr := String.ofList part
            .error (makeInputErr
              s!"Expected part to be 'uploads'. Got: {partStr} for {name} is_upload: {isUpload}")
          else
            match parts with
            | instanceName :: _ => .ok { output with instanceName := instanceName }
            | [] => .ok output

-- `to_string`: the fields that are present and not empty, joined by slashes.
def toString (r : ResourceInfo) (isUpload : Bool) : List Char :=
  Text.join '/'
    ([some r.instanceName, if isUpload then some uploads else none, r.uuid,
      some (if r.compressor.isSome then compressedBlobs else blobs), r.compressor, r.digestFunction,
      some r.hash, some r.size, r.optionalMetadata].reduceOption.filter fun part => !part.isEmpty)

/-! ## One part at a time -/

section Parts

variable {part : List Char} {output : ResourceInfo} {bytesProcessed : Nat}

theorem processPart_compressor (h : part ∈ compressors) :
    processPart part (.compressor, output, bytesProcessed) =
      .ok (.digestFunction, { output with compressor := some part }, bytesProcessed + part.length + slashSize) := by
  simp [processPart, h]

theorem processPart_digestFunction (h : part ∈ digestFunctions) :
    processPart part (.digestFunction, output, bytesProcessed) =
      .ok (.hash, { output with digestFunction := some part }, bytesProcessed + part.length + slashSize) := by
  simp [processPart, h]

theorem processPart_digestFunction_of_not_mem (h : part ∉ digestFunctions) :
    processPart part (.digestFunction, output, bytesProcessed) = processPart part (.hash, output, bytesProcessed) := by
  simp [processPart, h]

theorem processPart_hash :
    processPart part (.hash, output, bytesProcessed) =
      .ok (.size, { output with hash := part }, bytesProcessed + part.length + slashSize) := rfl

theorem processPart_size {expectedSize : Nat} (h : Decimal.parseUnsigned u64Max part = .ok expectedSize) :
    processPart part (.size, output, bytesProcessed) =
      .ok (.optionalMetadata, { output with size := part, expectedSize := expectedSize }, bytesProcessed + part.length) := by
  simp [processPart, h]

theorem processPart_optionalMetadata :
    processPart part (.optionalMetadata, output, bytesProcessed) =
      .ok (.optionalMetadata, { output with optionalMetadata := some part }, bytesProcessed + part.length + slashSize) := rfl

theorem recursiveParse_blobs (rparts : List (List Char)) :
    recursiveParse (blobs :: rparts) output .unknown bytesProcessed = .ok (.digestFunction, output, blobs.length + slashSize) := by
  simp [recursiveParse]

theorem recursiveParse_compressedBlobs (rparts : List (List Char)) :
    recursiveParse (compressedBlobs :: rparts) output .unknown bytesProcessed =
      .ok (.compressor, output, compressedBlobs.length + slashSize) := by
  have hne : compressedBlobs ≠ blobs := by decide
  rw [recursiveParse, if_pos rfl, if_neg hne, if_pos rfl]

theorem recursiveParse_cons (h₁ : part ≠ blobs) (h₂ : part ≠ compressedBlobs) (rparts : List (List Char)) :
    recursiveParse (part :: rparts) output .unknown bytesProcessed =
      recursiveParse rparts output .unknown bytesProcessed >>= processPart part := by
  simp [recursiveParse, h₁, h₂]
  rfl

theorem recursiveParse_append {parts : List (List Char)} (h : ∀ p ∈ parts, p ≠ blobs ∧ p ≠ compressedBlobs)
    (rparts : List (List Char)) :
    recursiveParse (parts.reverse ++ rparts) output .unknown bytesProcessed =
      recursiveParse rparts output .unknown bytesProcessed >>= fun r => parts.foldlM (fun r p => processPart p r) r := by
  induction parts using List.reverseRecOn with
  | nil => simp
  | append_singleton parts p ih =>
    have hp := h p (by simp)
    rw [List.reverse_append, List.reverse_singleton, List.singleton_append, List.cons_append,
      recursiveParse_cons hp.1 hp.2, ih (fun q hq => h q (by simp [hq]))]
    simp [List.foldlM_append]

end Parts

/-! ## The pattern of a resource name -/

-- A path segment of the pattern: not empty, without a slash, and neither of the two markers the
-- parser looks for.
structure Segment (p : List Char) : Prop where
  ne_nil : p ≠ []
  slash_not_mem : '/' ∉ p
  ne_blobs : p ≠ blobs
  ne_compressedBlobs : p ≠ compressedBlobs

-- `blobs`, or `compressed-blobs` when there is a compressor.
def marker (r : ResourceInfo) : List Char :=
  if r.compressor.isSome then compressedBlobs else blobs

def afterMarker (r : ResourceInfo) : List (List Char) :=
  r.compressor.toList ++ r.digestFunction.toList ++ [r.hash, r.size] ++ r.optionalMetadata.toList

def beforeMarker (isUpload : Bool) (r : ResourceInfo) : List (List Char) :=
  (if r.instanceName = [] then [] else [r.instanceName]) ++ (if isUpload then uploads :: r.uuid.toList else [])

-- The name `{instance_name/}(uploads/{uuid}/)(blobs|compressed-blobs/{compressor})/{digest_function/}{hash}/{size}{/optional_metadata}`
-- of the fields: an empty instance name is left out with its slash.
def render (isUpload : Bool) (r : ResourceInfo) : List Char :=
  Text.join '/' (beforeMarker isUpload r ++ marker r :: afterMarker r)

-- The fields of a name of that pattern: the instance name is any text, the uuid a segment, the
-- compressor and digest function from the fixed lists, the size a decimal `usize`, and the hash
-- and the metadata single segments. A hash that is the name of a digest function needs the digest
-- function before it.
structure WellFormed (isUpload : Bool) (r : ResourceInfo) : Prop where
  uuid_of_upload : isUpload = true → ∃ u, r.uuid = some u ∧ u ≠ [] ∧ '/' ∉ u
  uuid_of_read : isUpload = false → r.uuid = none
  compressor : ∀ c ∈ r.compressor, c ∈ compressors
  digestFunction : ∀ d ∈ r.digestFunction, d ∈ digestFunctions
  hash : Segment r.hash
  hash_not_mem : r.digestFunction = none → r.hash ∉ digestFunctions
  size : Decimal.parseUnsigned u64Max r.size = .ok r.expectedSize
  optionalMetadata : ∀ m ∈ r.optionalMetadata, Segment m

theorem segment_of_mem_compressors : ∀ c ∈ compressors, Segment c := by
  have h : ∀ c ∈ compressors, c ≠ [] ∧ '/' ∉ c ∧ c ≠ blobs ∧ c ≠ compressedBlobs := by decide
  exact fun c hc => have ⟨h₁, h₂, h₃, h₄⟩ := h c hc; ⟨h₁, h₂, h₃, h₄⟩

theorem segment_of_mem_digestFunctions : ∀ d ∈ digestFunctions, Segment d := by
  have h : ∀ d ∈ digestFunctions, d ≠ [] ∧ '/' ∉ d ∧ d ≠ blobs ∧ d ≠ compressedBlobs := by decide
  exact fun d hd => have ⟨h₁, h₂, h₃, h₄⟩ := h d hd; ⟨h₁, h₂, h₃, h₄⟩

theorem segment_of_parseUnsigned {size : List Char} {n : Nat} (h : Decimal.parseUnsigned u64Max size = .ok n) :
    Segment size := by
  obtain ⟨hne, hdigits⟩ := Decimal.parseUnsigned_ok h
  have hnot : ∀ c, c.isDigit = false → c ≠ '+' → c ∉ size := fun c hc hplus hmem => by
    rcases hdigits c hmem with h | h
    case inl => rw [hc] at h; cases h
    case inr => exact hplus h
  refine ⟨hne, hnot '/' rfl (by decide), fun hb => ?_, fun hb => ?_⟩
  case refine_1 => exact hnot 'b' rfl (by decide) (by rw [hb]; decide)
  case refine_2 => exact hnot 'c' rfl (by decide) (by rw [hb]; decide)

section WellFormed

variable {isUpload : Bool} {r : ResourceInfo}

theorem WellFormed.afterMarker (h : WellFormed isUpload r) : ∀ p ∈ afterMarker r, Segment p := by
  intro p hp
  simp only [ResourceInfo.afterMarker, List.mem_append, Option.mem_toList, List.mem_cons, List.not_mem_nil,
    or_false] at hp
  rcases hp with ((hc | hd) | rfl | rfl) | hm
  case inl.inl.inl => exact segment_of_mem_compressors p (h.compressor p hc)
  case inl.inl.inr => exact segment_of_mem_digestFunctions p (h.digestFunction p hd)
  case inl.inr.inl => exact h.hash
  case inl.inr.inr => exact segment_of_parseUnsigned h.size
  case inr => exact h.optionalMetadata p hm

theorem WellFormed.withInstanceName (h : WellFormed isUpload r) (instanceName : List Char) :
    WellFormed isUpload { r with instanceName := instanceName } :=
  ⟨h.uuid_of_upload, h.uuid_of_read, h.compressor, h.digestFunction, h.hash, h.hash_not_mem, h.size,
    h.optionalMetadata⟩

theorem length_afterMarker_le : (afterMarker r).length ≤ 5 := by
  have hc := (r.compressor).length_toList_le
  have hd := (r.digestFunction).length_toList_le
  have hm := (r.optionalMetadata).length_toList_le
  simp only [afterMarker, List.length_append, List.length_cons, List.length_nil]
  omega

theorem slash_not_mem_marker : '/' ∉ marker r := by
  unfold marker
  split <;> decide

theorem rsplitn_render (h : WellFormed isUpload r) :
    ∃ rest, Text.rsplitn '/' 7 (render isUpload r) = (afterMarker r).reverse ++ marker r :: rest := by
  obtain ⟨m, hm⟩ : ∃ m, 7 = (afterMarker r).length + (m + 1) + 1 :=
    ⟨5 - (afterMarker r).length, by have := length_afterMarker_le (r := r); omega⟩
  rw [render, show beforeMarker isUpload r ++ marker r :: afterMarker r =
      (beforeMarker isUpload r ++ [marker r]) ++ afterMarker r by simp, hm,
    Text.rsplitn_join_append (m + 1) (by simp) (fun a ha => (h.afterMarker a ha).slash_not_mem)]
  by_cases hb : beforeMarker isUpload r = []
  case pos =>
    refine ⟨[], ?_⟩
    rw [hb, List.nil_append, show Text.join '/' [marker r] = marker r from List.intercalate_singleton,
      Text.rsplitn_of_not_mem (m + 1) slash_not_mem_marker]
  case neg => exact ⟨_, by rw [Text.join_append_singleton hb, Text.rsplitn_append m slash_not_mem_marker]⟩

theorem render_ne_nil : render isUpload r ≠ [] := by
  by_cases hb : beforeMarker isUpload r = []
  case pos =>
    have hmarker : marker r ≠ [] := by unfold marker; split <;> decide
    rw [render, hb, List.nil_append]
    exact Text.join_cons_ne_nil hmarker _
  case neg =>
    rw [render, Text.join_append hb (List.cons_ne_nil _ _)]
    simp

-- The state the marker leaves the parse in.
def startState (r : ResourceInfo) : State :=
  if r.compressor.isSome then .compressor else .digestFunction

-- The fields the parse fills in from the parts right of the marker.
def parsed (r : ResourceInfo) : ResourceInfo :=
  ⟨[], none, r.compressor, r.digestFunction, r.hash, r.size, r.expectedSize, r.optionalMetadata⟩

theorem foldlM_afterMarker (h : WellFormed isUpload r) :
    (afterMarker r).foldlM (fun acc p => processPart p acc) (startState r, default, (marker r).length + slashSize) =
      .ok (.optionalMetadata, parsed r, (Text.join '/' (marker r :: afterMarker r)).length) := by
  have hc := h.compressor
  have hd := h.digestFunction
  have hh := h.hash_not_mem
  have hs := h.size
  rcases r with ⟨instanceName, uuid, _ | c, _ | d, hash, size, expectedSize, _ | m⟩
  all_goals
    simp only [Option.mem_def, Option.some.injEq, forall_eq', reduceCtorEq, IsEmpty.forall_iff,
      implies_true, forall_const] at hc hd hh hs
    simp [afterMarker, startState, marker, parsed, default, Text.join, slashSize, bind, Except.bind, pure, Except.pure, processPart_compressor,
      processPart_digestFunction, processPart_digestFunction_of_not_mem, processPart_hash,
      processPart_size hs, processPart_optionalMetadata, hc, hd, hh]
    try omega

theorem recursiveParse_marker (rparts : List (List Char)) :
    recursiveParse (marker r :: rparts) default .unknown 0 = .ok (startState r, default, (marker r).length + slashSize) := by
  by_cases hc : r.compressor.isSome
  case pos => simpa [marker, startState, hc] using recursiveParse_compressedBlobs rparts
  case neg => simpa [marker, startState, hc] using recursiveParse_blobs rparts

theorem recursiveParse_render (h : WellFormed isUpload r) :
    recursiveParse (Text.rsplitn '/' 7 (render isUpload r)) default .unknown 0 =
      .ok (.optionalMetadata, parsed r, (Text.join '/' (marker r :: afterMarker r)).length) := by
  obtain ⟨rest, hrest⟩ := rsplitn_render h
  have hnot : ∀ p ∈ afterMarker r, p ≠ blobs ∧ p ≠ compressedBlobs :=
    fun p hp => ⟨(h.afterMarker p hp).ne_blobs, (h.afterMarker p hp).ne_compressedBlobs⟩
  rw [hrest, recursiveParse_append hnot, recursiveParse_marker]
  exact foldlM_afterMarker h

theorem beginningPart_render :
    (if (Text.join '/' (marker r :: afterMarker r)).length = (render isUpload r).length then []
      else (render isUpload r).take
        ((render isUpload r).length - (Text.join '/' (marker r :: afterMarker r)).length - slashSize)) =
      Text.join '/' (beforeMarker isUpload r) := by
  by_cases hb : beforeMarker isUpload r = []
  case pos => simp [render, hb, Text.join]
  case neg =>
    have hsplit : render isUpload r =
        Text.join '/' (beforeMarker isUpload r) ++ '/' :: Text.join '/' (marker r :: afterMarker r) :=
      Text.join_append hb (List.cons_ne_nil _ _)
    rw [hsplit, if_neg (by simp; omega), List.length_append, List.length_cons, slashSize,
      show (Text.join '/' (beforeMarker isUpload r)).length + ((Text.join '/' (marker r :: afterMarker r)).length + 1) -
        (Text.join '/' (marker r :: afterMarker r)).length - 1 = (Text.join '/' (beforeMarker isUpload r)).length by omega]
    exact List.take_left' rfl

theorem rsplitn_beforeMarker {u : List Char} (hu : r.uuid = some u) (hslash : '/' ∉ u) :
    Text.rsplitn '/' 3 (Text.join '/' (beforeMarker true r)) =
      u :: uploads :: (if r.instanceName = [] then [] else [r.instanceName]) := by
  have huploads : '/' ∉ uploads := by decide
  have hbefore : beforeMarker true r = ((if r.instanceName = [] then [] else [r.instanceName]) ++ [uploads]) ++ [u] := by
    simp [beforeMarker, hu]
  rw [hbefore, Text.join_append_singleton (by simp), Text.rsplitn_append 1 hslash]
  by_cases hi : r.instanceName = []
  case pos => simp [hi, Text.join, Text.rsplitn_of_not_mem 1 huploads]
  case neg =>
    rw [if_neg hi, Text.join_append_singleton (by simp), Text.rsplitn_append 0 huploads]
    simp [Text.join, Text.rsplitn]

theorem new_render (h : WellFormed isUpload r) : new (render isUpload r) isUpload = .ok r := by
  unfold new
  dsimp only
  rw [recursiveParse_render h]
  simp only [ne_eq, not_true_eq_false, if_false, beginningPart_render]
  cases isUpload
  case false =>
    have huuid := h.uuid_of_read rfl
    rcases r with ⟨instanceName, uuid, compressor, digestFunction, hash, size, expectedSize, optionalMetadata⟩
    by_cases hi : instanceName = []
    all_goals simp_all [beforeMarker, parsed, Text.join]
  case true =>
    obtain ⟨u, hu, -, hslash⟩ := h.uuid_of_upload rfl
    rw [rsplitn_beforeMarker hu hslash]
    rcases r with ⟨instanceName, uuid, compressor, digestFunction, hash, size, expectedSize, optionalMetadata⟩
    by_cases hi : instanceName = []
    all_goals simp_all [parsed]

theorem toString_eq_render (h : WellFormed isUpload r) : toString r isUpload = render isUpload r := by
  have hhash := h.hash.ne_nil
  have hsize := (segment_of_parseUnsigned h.size).ne_nil
  have hc : ∀ c ∈ r.compressor, c ≠ [] := fun c hc => (segment_of_mem_compressors c (h.compressor c hc)).ne_nil
  have hd : ∀ d ∈ r.digestFunction, d ≠ [] :=
    fun d hd => (segment_of_mem_digestFunctions d (h.digestFunction d hd)).ne_nil
  have hm : ∀ m ∈ r.optionalMetadata, m ≠ [] := fun m hm => (h.optionalMetadata m hm).ne_nil
  have huuid : r.uuid = none ∧ isUpload = false ∨ ∃ u, r.uuid = some u ∧ u ≠ [] ∧ isUpload = true := by
    cases isUpload
    case false => exact .inl ⟨h.uuid_of_read rfl, rfl⟩
    case true =>
      obtain ⟨u, hu, hne, -⟩ := h.uuid_of_upload rfl
      exact .inr ⟨u, hu, hne, rfl⟩
  have hb : blobs.isEmpty = false := rfl
  have hcb : compressedBlobs.isEmpty = false := rfl
  have hup : uploads.isEmpty = false := rfl
  unfold toString render
  congr 1
  rcases r with ⟨instanceName, uuid, _ | c, _ | d, hash, size, expectedSize, _ | m⟩
  all_goals
    rcases huuid with ⟨rfl, rfl⟩ | ⟨u, rfl, hu, rfl⟩
    all_goals
      by_cases hi : instanceName = []
      all_goals
        clear h
        simp_all [beforeMarker, marker, afterMarker]

end WellFormed

/-! ## What the parser accepts -/

theorem foldlM_invariant {α β ε : Type} {f : α → β → Except ε α} {I : α → Prop} {P : β → Prop}
    (hstep : ∀ a x a', P x → I a → f a x = .ok a' → I a') :
    ∀ (l : List β) (a res : α), (∀ x ∈ l, P x) → I a → l.foldlM f a = .ok res → I res
  | [], a, res, _, ha, h => by
    cases h
    exact ha
  | x :: l, a, res, hl, ha, h => by
    rw [List.foldlM_cons] at h
    cases hx : f a x with
    | error e => rw [hx] at h; cases h
    | ok a' =>
      rw [hx] at h
      exact foldlM_invariant hstep l a' res (fun y hy => hl y (List.mem_cons_of_mem x hy))
        (hstep a x a' (hl x List.mem_cons_self) ha hx) h

-- A part the walk to the left passes: no slash, and no marker.
structure Passed (part : List Char) : Prop where
  slash_not_mem : '/' ∉ part
  ne_blobs : part ≠ blobs
  ne_compressedBlobs : part ≠ compressedBlobs

-- What the fields filled so far satisfy, in the state the parse is in.
structure Filling (state : State) (output : ResourceInfo) : Prop where
  instanceName : output.instanceName = []
  uuid : output.uuid = none
  compressor : ∀ c ∈ output.compressor, c ∈ compressors
  digestFunction : ∀ d ∈ output.digestFunction, d ∈ digestFunctions
  digestFunction_of_hash : state = .hash → output.digestFunction.isSome
  hash : state = .size ∨ state = .optionalMetadata →
    Passed output.hash ∧ (output.digestFunction = none → output.hash ∉ digestFunctions)
  size : state = .optionalMetadata → Decimal.parseUnsigned u64Max output.size = .ok output.expectedSize
  optionalMetadata : ∀ m ∈ output.optionalMetadata, Passed m

theorem filling_default (state : State) (h : state = .compressor ∨ state = .digestFunction) :
    Filling state default := by
  refine ⟨rfl, rfl, nofun, nofun, ?_, ?_, ?_, nofun⟩ <;> rcases h with rfl | rfl <;> simp

theorem processPart_ok {part : List Char} {state state' : State} {output output' : ResourceInfo}
    {bytesProcessed bytesProcessed' : Nat}
    (h : processPart part (state, output, bytesProcessed) = .ok (state', output', bytesProcessed')) :
    (state = .compressor ∧ part ∈ compressors ∧ state' = .digestFunction ∧
      output' = { output with compressor := some part }) ∨
    (state = .digestFunction ∧ part ∈ digestFunctions ∧ state' = .hash ∧
      output' = { output with digestFunction := some part }) ∨
    ((state = .digestFunction ∧ part ∉ digestFunctions ∨ state = .hash) ∧ state' = .size ∧
      output' = { output with hash := part }) ∨
    (state = .size ∧ state' = .optionalMetadata ∧ ∃ expectedSize,
      Decimal.parseUnsigned u64Max part = .ok expectedSize ∧
      output' = { output with size := part, expectedSize := expectedSize }) ∨
    (state = .optionalMetadata ∧ state' = .optionalMetadata ∧ output' = { output with optionalMetadata := some part }) := by
  cases state
  case unknown => cases h
  case compressor =>
    by_cases hmem : part ∈ compressors
    case pos =>
      rw [processPart_compressor hmem] at h
      cases h
      exact .inl ⟨rfl, hmem, rfl, rfl⟩
    case neg => simp [ResourceInfo.processPart, hmem] at h
  case digestFunction =>
    by_cases hmem : part ∈ digestFunctions
    case pos =>
      rw [processPart_digestFunction hmem] at h
      cases h
      exact .inr (.inl ⟨rfl, hmem, rfl, rfl⟩)
    case neg =>
      rw [processPart_digestFunction_of_not_mem hmem, processPart_hash] at h
      cases h
      exact .inr (.inr (.inl ⟨.inl ⟨rfl, hmem⟩, rfl, rfl⟩))
  case hash =>
    rw [processPart_hash] at h
    cases h
    exact .inr (.inr (.inl ⟨.inr rfl, rfl, rfl⟩))
  case size =>
    cases hparse : Decimal.parseUnsigned u64Max part with
    | error e => simp [ResourceInfo.processPart, hparse] at h
    | ok expectedSize =>
      rw [processPart_size hparse] at h
      cases h
      exact .inr (.inr (.inr (.inl ⟨rfl, rfl, expectedSize, rfl, rfl⟩)))
  case optionalMetadata =>
    rw [processPart_optionalMetadata] at h
    cases h
    exact .inr (.inr (.inr (.inr ⟨rfl, rfl, rfl⟩)))

theorem Filling.processPart {part : List Char} {state state' : State} {output output' : ResourceInfo}
    {bytesProcessed bytesProcessed' : Nat} (hpart : Passed part) (h : Filling state output)
    (hstep : processPart part (state, output, bytesProcessed) = .ok (state', output', bytesProcessed')) :
    Filling state' output' := by
  rcases processPart_ok hstep with ⟨-, hmem, rfl, rfl⟩ | ⟨-, hmem, rfl, rfl⟩ | ⟨hfrom, rfl, rfl⟩ |
    ⟨rfl, rfl, expectedSize, hparse, rfl⟩ | ⟨rfl, rfl, rfl⟩
  case inl =>
    exact { h with
      compressor := fun c hc => by cases hc; exact hmem
      digestFunction_of_hash := nofun, hash := fun hs => by rcases hs with hs | hs <;> cases hs
      size := nofun }
  case inr.inl =>
    exact { h with
      digestFunction := fun d hd => by cases hd; exact hmem
      digestFunction_of_hash := fun _ => rfl, hash := fun hs => by rcases hs with hs | hs <;> cases hs
      size := nofun }
  case inr.inr.inl =>
    have hnot : output.digestFunction = none → part ∉ digestFunctions := by
      rcases hfrom with ⟨-, hmem⟩ | rfl
      case inl => exact fun _ => hmem
      case inr =>
        intro hnone
        have hsome := h.digestFunction_of_hash rfl
        rw [hnone] at hsome
        cases hsome
    exact { h with digestFunction_of_hash := nofun, hash := fun _ => ⟨hpart, hnot⟩, size := nofun }
  case inr.inr.inr.inl =>
    exact { h with digestFunction_of_hash := nofun, hash := fun _ => h.hash (.inl rfl), size := fun _ => hparse }
  case inr.inr.inr.inr =>
    exact { h with optionalMetadata := fun m hm => by cases hm; exact hpart }

theorem recursiveParse_ok {output : ResourceInfo} {bytesProcessed : Nat} :
    ∀ {rparts : List (List Char)} {res : State × ResourceInfo × Nat},
      recursiveParse rparts output .unknown bytesProcessed = .ok res →
      ∃ (parts : List (List Char)) (m : List Char) (rest : List (List Char)), rparts = parts.reverse ++ m :: rest ∧ (∀ p ∈ parts, p ≠ blobs ∧ p ≠ compressedBlobs) ∧
        (m = blobs ∨ m = compressedBlobs) ∧
        parts.foldlM (fun r p => processPart p r)
          (if m = blobs then .digestFunction else .compressor, output, m.length + slashSize) = .ok res
  | [], _, h => by cases h
  | part :: rparts, res, h => by
    by_cases hb : part = blobs
    case pos =>
      subst hb
      rw [recursiveParse_blobs] at h
      cases h
      exact ⟨[], blobs, rparts, rfl, nofun, .inl rfl, by simp; rfl⟩
    case neg =>
      by_cases hc : part = compressedBlobs
      case pos =>
        subst hc
        rw [recursiveParse_compressedBlobs] at h
        cases h
        have hne : compressedBlobs ≠ blobs := by decide
        exact ⟨[], compressedBlobs, rparts, rfl, nofun, .inr rfl, by simp [hne]; rfl⟩
      case neg =>
        rw [recursiveParse_cons hb hc] at h
        cases hrec : recursiveParse rparts output .unknown bytesProcessed with
        | error e => rw [hrec] at h; cases h
        | ok mid =>
          rw [hrec] at h
          obtain ⟨parts, m, rest, hparts, hnot, hm, hfold⟩ := recursiveParse_ok hrec
          refine ⟨parts ++ [part], m, rest, by simp [hparts], ?_, hm, ?_⟩
          case refine_1 =>
            intro p hp
            rcases List.mem_append.mp hp with hp | hp
            case inl => exact hnot p hp
            case inr => rw [List.mem_singleton.mp hp]; exact ⟨hb, hc⟩
          case refine_2 =>
            rw [List.foldlM_append, hfold]
            simpa using h

theorem Filling.wellFormed {isUpload : Bool} {output : ResourceInfo} (h : Filling .optionalMetadata output)
    (instanceName : List Char) {uuid : Option (List Char)}
    (hupload : isUpload = true → ∃ u, uuid = some u ∧ u ≠ [] ∧ '/' ∉ u) (hread : isUpload = false → uuid = none)
    (hhash : output.hash ≠ []) (hmetadata : output.optionalMetadata ≠ some []) :
    WellFormed isUpload { output with instanceName := instanceName, uuid := uuid } := by
  obtain ⟨⟨hslash, hb, hcb⟩, hnot⟩ := h.hash (.inr rfl)
  refine ⟨hupload, hread, h.compressor, h.digestFunction, ⟨hhash, hslash, hb, hcb⟩, hnot, h.size rfl, ?_⟩
  intro m hm
  have hp := h.optionalMetadata m hm
  exact ⟨fun hnil => hmetadata (hnil ▸ hm), hp.slash_not_mem, hp.ne_blobs, hp.ne_compressedBlobs⟩

theorem mem_dropLast_of_mem {parts rest : List (List Char)} {part m : List Char} (h : part ∈ parts) :
    part ∈ (parts ++ m :: rest).dropLast := by
  rw [List.dropLast_append_of_ne_nil (List.cons_ne_nil m rest)]
  exact List.mem_append_left _ h

theorem wellFormed_of_new {isUpload : Bool} {s : List Char} {r : ResourceInfo} (h : new s isUpload = .ok r)
    (hhash : r.hash ≠ []) (huuid : r.uuid ≠ some []) (hmetadata : r.optionalMetadata ≠ some []) :
    WellFormed isUpload r := by
  unfold new at h
  dsimp only at h
  split at h
  case h_1 => cases h
  case h_2 endState output endBytesProcessed hrec =>
    split at h
    case isTrue => cases h
    case isFalse hend =>
      rw [not_not] at hend
      subst hend
      obtain ⟨parts, m, rest, hrparts, hnot, hm, hfold⟩ := recursiveParse_ok hrec
      have hpassed : ∀ p ∈ parts, Passed p := fun p hp =>
        ⟨Text.not_mem_of_mem_dropLast_rsplitn (by rw [hrparts]; exact mem_dropLast_of_mem (List.mem_reverse.mpr hp)),
          (hnot p hp).1, (hnot p hp).2⟩
      have hstart : Filling (if m = blobs then .digestFunction else .compressor) default := by
        apply filling_default
        split
        case isTrue => exact .inr rfl
        case isFalse => exact .inl rfl
      have hfill : Filling .optionalMetadata output :=
        foldlM_invariant (I := fun a => Filling a.1 a.2.1) (P := Passed)
          (fun _ _ _ hx ha hstep => Filling.processPart hx ha hstep) parts _ _ hpassed hstart hfold
      split at h
      case isTrue hread =>
        cases h
        have hread' : isUpload = false := by simpa using hread
        exact hfill.wellFormed _ (fun hu => by rw [hread'] at hu; cases hu) (fun _ => hfill.uuid) hhash hmetadata
      case isFalse hupload =>
        have hupload' : isUpload = true := by simpa using hupload
        split at h
        case h_1 => cases h
        case h_2 => cases h
        case h_3 uuid part rest' hsplit =>
          have hslash : '/' ∉ uuid :=
            Text.not_mem_of_mem_dropLast_rsplitn (by rw [hsplit]; simp)
          split at h
          case isTrue => cases h
          case isFalse =>
            have hu : ∀ {output' : ResourceInfo}, output'.uuid = some uuid → r = output' →
                isUpload = true → ∃ u, output'.uuid = some u ∧ u ≠ [] ∧ '/' ∉ u :=
              fun hout hr _ => ⟨uuid, hout, fun hnil => huuid (by rw [hr, hout, hnil]), hslash⟩
            split at h
            case h_1 instanceName _ =>
              cases h
              exact hfill.wellFormed instanceName (hu rfl rfl) (fun hr => by rw [hupload'] at hr; cases hr)
                hhash hmetadata
            case h_2 =>
              cases h
              exact hfill.wellFormed output.instanceName (hu rfl rfl) (fun hr => by rw [hupload'] at hr; cases hr)
                hhash hmetadata

end ResourceInfo

end NativeLink

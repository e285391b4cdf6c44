import NativeLink.Util.StoreTrait

-- Model of `CasServer::inner_get_tree` of `nativelink-service/src/cas_server.rs`, for a store that
-- is not a `GrpcStore`. The directories are walked breadth first from the root, and one page of
-- them is returned: a page starts at the first directory of the walk whose digest is the page
-- token, and the next token is the digest the walk would visit next. The page token is kept parsed,
-- as the digest it names; `get_and_decode_digest` on the store is the function `cas`.

namespace NativeLink

-- `Directory`, by the digests of its subdirectories; its files and symlinks are not read here.
structure Directory where
  directories : List DigestInfo
  deriving DecidableEq, Repr

-- `GetTreeRequest`, with its page token parsed: `none` for the empty token.
structure GetTreeRequest where
  rootDigest : DigestInfo
  pageSize : Int32
  pageToken : Option DigestInfo

-- `GetTreeResponse`, with `none` for the empty `next_page_token`.
structure GetTreeResponse where
  directories : List Directory
  nextPageToken : Option DigestInfo
  deriving DecidableEq, Repr

namespace CasServer

variable (cas : DigestInfo → Except Error Directory)

-- The `while` loop of `inner_get_tree`, over the deque, the directories of the page so far and
-- `page_token_matched`. Each turn pops one digest; `fuel` bounds the turns, and running out of it
-- is `none`. It returns the page and what is left in the deque.
def getTreeLoop (pageTokenDigest : DigestInfo) (pageSize : Int32) :
    Nat → List DigestInfo → List Directory → Bool →
      Option (Except Error (List Directory × List DigestInfo))
  | 0, _, _, _ => none
  | _ + 1, [], directories, _ => some (.ok (directories, []))
  | fuel + 1, digest :: deque, directories, pageTokenMatched =>
    match cas digest with
    | .error e => some (.error (e.append "Converting digest to Directory"))
    | .ok directory =>
      let pageTokenMatched := pageTokenMatched || digest == pageTokenDigest
      let deque := deque ++ directory.directories
      if pageTokenMatched then
        let directories := directories ++ [directory]
        -- `directories.len() as i32 == page_size`
        if Int32.ofNat directories.length == pageSize then some (.ok (directories, deque))
        else getTreeLoop pageTokenDigest pageSize fuel deque directories pageTokenMatched
      else getTreeLoop pageTokenDigest pageSize fuel deque directories pageTokenMatched

def innerGetTree (fuel : Nat) (request : GetTreeRequest) : Option (Except Error GetTreeResponse) :=
  let pageTokenDigest := request.pageToken.getD request.rootDigest
  -- If `page_size` is 0, paging is not necessary.
  let pageTokenMatched := request.pageSize == 0
  (getTreeLoop cas pageTokenDigest request.pageSize fuel [request.rootDigest] [] pageTokenMatched).map
    (·.map fun (directories, deque) => ⟨directories, deque.head?⟩)

-- The client's side of paging: ask for pages, passing each page's token back, until the token is
-- empty, and put the pages together. `pages` bounds the requests; running out of them is `none`.
def getTreePaged (fuel : Nat) (rootDigest : DigestInfo) (pageSize : Int32) :
    Nat → Option DigestInfo → Option (Except Error (List Directory))
  | 0, _ => none
  | pages + 1, pageToken =>
    match innerGetTree cas fuel ⟨rootDigest, pageSize, pageToken⟩ with
    | some (.ok response) =>
      match response.nextPageToken with
      | none => some (.ok response.directories)
      | some next =>
        (getTreePaged fuel rootDigest pageSize pages (some next)).map (·.map (response.directories ++ ·))
    | some (.error e) => some (.error e)
    | none => none

variable {cas}

theorem getTreeLoop_fuel_mono {pageTokenDigest : DigestInfo} {pageSize : Int32} :
    ∀ {fuel fuel' : Nat} {deque : List DigestInfo} {directories : List Directory} {matched : Bool}
      {r : Except Error (List Directory × List DigestInfo)}, fuel ≤ fuel' →
      getTreeLoop cas pageTokenDigest pageSize fuel deque directories matched = some r →
      getTreeLoop cas pageTokenDigest pageSize fuel' deque directories matched = some r
  | 0, _, _, _, _, _, _, h => nomatch h
  | fuel + 1, fuel' + 1, [], _, _, _, _, h => h
  | fuel + 1, fuel' + 1, digest :: deque, directories, matched, r, hle, h => by
    simp only [getTreeLoop] at h ⊢
    split
    case h_1 => simpa [*] using h
    case h_2 directory hcas =>
      simp only [hcas] at h
      split_ifs at h ⊢
      all_goals first
        | exact h
        | exact getTreeLoop_fuel_mono (Nat.le_of_succ_le_succ hle) h

theorem innerGetTree_fuel_mono {fuel fuel' : Nat} {request : GetTreeRequest}
    {r : Except Error GetTreeResponse} (hle : fuel ≤ fuel') (h : innerGetTree cas fuel request = some r) :
    innerGetTree cas fuel' request = some r := by
  simp only [innerGetTree, Option.map_eq_some_iff] at h ⊢
  obtain ⟨r', hloop, rfl⟩ := h
  exact ⟨r', getTreeLoop_fuel_mono hle hloop, rfl⟩

/-! ## Pages of the walk -/

-- The breadth-first listing of the digests from a deque, over a store that holds every directory
-- (`dir`): `some` of the listing when the walk ends within `fuel` turns.
def walk (dir : DigestInfo → Directory) : Nat → List DigestInfo → Option (List DigestInfo)
  | 0, _ => none
  | _ + 1, [] => some []
  | fuel + 1, digest :: deque => (walk dir fuel (deque ++ (dir digest).directories)).map (digest :: ·)

section Pages

variable {dir : DigestInfo → Directory} {pageTokenDigest : DigestInfo} {pageSize : Int32}

theorem walk_cons {fuel : Nat} {digest : DigestInfo} {deque L : List DigestInfo}
    (h : walk dir fuel (digest :: deque) = some L) :
    ∃ fuel' L', fuel = fuel' + 1 ∧ L = digest :: L' ∧ walk dir fuel' (deque ++ (dir digest).directories) = some L' := by
  cases fuel
  case zero => cases h
  case succ fuel' =>
    simp only [walk, Option.map_eq_some_iff] at h
    obtain ⟨L', hL', rfl⟩ := h
    exact ⟨fuel', L', rfl, rfl, hL'⟩

theorem walk_head {fuel : Nat} {deque L : List DigestInfo} (h : walk dir fuel deque = some L) :
    L.head? = deque.head? := by
  cases deque
  case nil =>
    cases fuel
    case zero => cases h
    case succ => cases h; rfl
  case cons digest deque =>
    obtain ⟨_, L', -, rfl, -⟩ := walk_cons h
    rfl

theorem ofNat_beq_of_lt {m : Nat} (hm : m < 2 ^ 31) (hk : 0 ≤ pageSize.toInt) :
    (Int32.ofNat m == pageSize) = true ↔ m = pageSize.toInt.toNat := by
  rw [beq_iff_eq, ← Int32.toInt_inj, Int32.toInt_ofNat_of_lt hm]
  omega

theorem ofNat_beq_zero {m : Nat} (h0 : 0 < m) (hm : m < 2 ^ 32) : (Int32.ofNat m == 0) = false := by
  rw [beq_eq_false_iff_ne]
  intro h
  have := congrArg (fun x : Int32 => x.toBitVec.toNat) h
  simp at this
  omega

-- A page of the loop: from the first visit of the token, or at once when it has matched, it
-- collects what the page still lacks, and leaves the deque at the digest the walk visits next.
-- The induction follows the loop, one popped digest a turn.
theorem getTreeLoop_page (hk : 0 < pageSize.toInt) :
    ∀ {fuel : Nat} {deque L : List DigestInfo} {directories : List Directory} (matched : Bool),
      walk dir fuel deque = some L → directories.length < pageSize.toInt.toNat →
      ∃ deque', getTreeLoop (fun digest => .ok (dir digest)) pageTokenDigest pageSize fuel deque directories matched =
          some (.ok (directories ++ (((L.drop (if matched then 0 else L.idxOf pageTokenDigest)).take
            (pageSize.toInt.toNat - directories.length)).map dir), deque')) ∧
        deque'.head? = L[(if matched then 0 else L.idxOf pageTokenDigest) + (pageSize.toInt.toNat - directories.length)]?
  | 0, _, _, _, _, h, _ => nomatch h
  | fuel + 1, [], L, directories, matched, h, _ => by
    cases h
    exact ⟨[], by simp [getTreeLoop], rfl⟩
  | fuel + 1, digest :: deque, L, directories, matched, h, hlen => by
    obtain ⟨_, L', hfuel, rfl, hwalk⟩ := walk_cons h
    cases hfuel
    have hk31 : pageSize.toInt.toNat < 2 ^ 31 := by have := pageSize.toInt_lt; omega
    simp only [getTreeLoop]
    by_cases hm : (matched || digest == pageTokenDigest) = true
    case pos =>
      have hi : (if matched then 0 else (digest :: L').idxOf pageTokenDigest) = 0 := by
        cases matched
        case false =>
          simp only [Bool.false_or, beq_iff_eq] at hm
          simp [hm]
        case true => rfl
      rw [hi, if_pos hm]
      by_cases hfull : (Int32.ofNat (directories ++ [dir digest]).length == pageSize) = true
      case pos =>
        have hc : pageSize.toInt.toNat - directories.length = 1 := by
          have := (ofNat_beq_of_lt (by simp only [List.length_append, List.length_singleton]; omega)
            (Int.le_of_lt hk)).mp hfull
          simp only [List.length_append, List.length_singleton] at this
          omega
        rw [if_pos hfull, hc]
        refine ⟨_, rfl, ?_⟩
        rw [← walk_head hwalk]
        cases L' <;> rfl
      case neg =>
        have hlen' : (directories ++ [dir digest]).length < pageSize.toInt.toNat := by
          have := (ofNat_beq_of_lt (m := (directories ++ [dir digest]).length)
            (by simp only [List.length_append, List.length_singleton]; omega) (Int.le_of_lt hk)).not.mp hfull
          simp only [List.length_append, List.length_singleton] at this ⊢
          omega
        rw [if_neg hfull]
        obtain ⟨deque', hloop, hhead⟩ := getTreeLoop_page hk true hwalk hlen'
        have hc : pageSize.toInt.toNat - directories.length =
            pageSize.toInt.toNat - (directories ++ [dir digest]).length + 1 := by
          simp only [List.length_append, List.length_singleton] at hlen' ⊢
          omega
        refine ⟨deque', ?_, ?_⟩
        case refine_1 =>
          rw [hm, hloop, hc]
          simp
        case refine_2 =>
          rw [hhead, hc]
          simp
    case neg =>
      have hmf : (matched || digest == pageTokenDigest) = false := Bool.eq_false_iff.mpr hm
      obtain ⟨rfl, hne⟩ : matched = false ∧ digest ≠ pageTokenDigest := by simpa using hmf
      have hi : (digest :: L').idxOf pageTokenDigest = L'.idxOf pageTokenDigest + 1 :=
        List.idxOf_cons_ne L' hne
      rw [if_neg hm]
      obtain ⟨deque', hloop, hhead⟩ := getTreeLoop_page hk false hwalk hlen
      refine ⟨deque', ?_, ?_⟩
      case refine_1 =>
        rw [hmf, hloop]
        simp [hi]
      case refine_2 =>
        rw [hhead]
        simp [hi, Nat.add_right_comm]
theorem getTreeLoop_unpaged :
    ∀ {fuel : Nat} {deque L : List DigestInfo} {directories : List Directory},
      walk dir fuel deque = some L → directories.length + L.length < 2 ^ 32 →
      getTreeLoop (fun digest => .ok (dir digest)) pageTokenDigest 0 fuel deque directories true =
        some (.ok (directories ++ L.map dir, []))
  | 0, _, _, _, h, _ => nomatch h
  | fuel + 1, [], L, directories, h, _ => by
    cases h
    simp [getTreeLoop]
  | fuel + 1, digest :: deque, L, directories, h, hlen => by
    obtain ⟨_, L', hfuel, rfl, hwalk⟩ := walk_cons h
    cases hfuel
    simp only [List.length_cons] at hlen
    have hne := ofNat_beq_zero (m := (directories ++ [dir digest]).length) (by simp)
      (by simp only [List.length_append, List.length_singleton]; omega)
    simp only [getTreeLoop, Bool.true_or, if_true, hne, Bool.false_eq_true, if_false]
    rw [getTreeLoop_unpaged hwalk (by simp only [List.length_append, List.length_singleton]; omega)]
    simp

-- A page of `GetTree`: the walk from the root, from the first visit of the token (the root when
-- there is none) on, as many directories as the page size; the next token is the digest the walk
-- visits after them, if there is one.
theorem innerGetTree_page {fuel : Nat} {request : GetTreeRequest} {L : List DigestInfo}
    (hk : 0 < request.pageSize.toInt) (hwalk : walk dir fuel [request.rootDigest] = some L) :
    innerGetTree (fun digest => .ok (dir digest)) fuel request =
      some (.ok ⟨((L.drop (L.idxOf (request.pageToken.getD request.rootDigest))).take
          request.pageSize.toInt.toNat).map dir,
        L[L.idxOf (request.pageToken.getD request.rootDigest) + request.pageSize.toInt.toNat]?⟩) := by
  have hne : (request.pageSize == 0) = false := by
    rw [beq_eq_false_iff_ne]
    rintro h
    rw [h] at hk
    exact absurd hk (by decide)
  simp only [innerGetTree, hne]
  have hlen : ([] : List Directory).length < request.pageSize.toInt.toNat := by
    show 0 < request.pageSize.toInt.toNat
    omega
  obtain ⟨deque', hloop, hhead⟩ := getTreeLoop_page hk false hwalk hlen
  simp only [Bool.false_eq_true, if_false, List.length_nil, Nat.sub_zero] at hloop hhead
  rw [hloop]
  simp only [List.nil_append, Option.map_some, Except.map, hhead]

theorem innerGetTree_unpaged {fuel : Nat} {request : GetTreeRequest} {L : List DigestInfo}
    (hk : request.pageSize = 0) (hwalk : walk dir fuel [request.rootDigest] = some L) (hlen : L.length < 2 ^ 32) :
    innerGetTree (fun digest => .ok (dir digest)) fuel request = some (.ok ⟨L.map dir, none⟩) := by
  simp only [innerGetTree, hk, beq_self_eq_true]
  rw [getTreeLoop_unpaged hwalk (by simpa using hlen)]
  rfl

-- From a page that starts at the first visit of its token, the pages go on to the end of the walk
-- when its digests are distinct: each next token is then first visited where the last page ended.
-- The induction is on the requests left, which the part of the walk left bounds.
theorem getTreePaged_drop {fuel : Nat} {rootDigest : DigestInfo} {L : List DigestInfo}
    (hk : 0 < pageSize.toInt) (hwalk : walk dir fuel [rootDigest] = some L) (hnodup : L.Nodup) :
    ∀ (pages i : Nat) (pageToken : Option DigestInfo), L.idxOf (pageToken.getD rootDigest) = i →
      i < L.length → L.length - i ≤ pages →
      getTreePaged (fun digest => .ok (dir digest)) fuel rootDigest pageSize pages pageToken =
        some (.ok ((L.drop i).map dir)) := by
  intro pages
  induction pages with
  | zero => intro i _ _ hi hle; omega
  | succ pages ih =>
    intro i pageToken hidx hi hle
    have hpage : innerGetTree (fun digest => .ok (dir digest)) fuel ⟨rootDigest, pageSize, pageToken⟩ = _ :=
      innerGetTree_page hk hwalk
    simp only [hidx] at hpage
    simp only [getTreePaged, hpage]
    by_cases hend : L.length ≤ i + pageSize.toInt.toNat
    case pos =>
      rw [List.getElem?_eq_none hend]
      simp only [List.map_take, List.map_drop]
      rw [List.take_of_length_le (by rw [List.length_drop, List.length_map]; omega)]
    case neg =>
      have hlt : i + pageSize.toInt.toNat < L.length := by omega
      rw [List.getElem?_eq_getElem hlt]
      have hnext := ih (i + pageSize.toInt.toNat) (some L[i + pageSize.toInt.toNat])
        (hnodup.idxOf_getElem _ hlt) hlt (by omega)
      simp only [hnext, Option.map_some, Except.map]
      rw [← List.map_append, ← List.drop_drop, List.take_append_drop]

theorem getTreePaged_of_nodup {fuel : Nat} {rootDigest : DigestInfo} {L : List DigestInfo}
    (hk : 0 < pageSize.toInt) (hwalk : walk dir fuel [rootDigest] = some L) (hnodup : L.Nodup) :
    getTreePaged (fun digest => .ok (dir digest)) fuel rootDigest pageSize L.length none =
      some (.ok (L.map dir)) := by
  obtain ⟨L', rfl⟩ : ∃ L', L = rootDigest :: L' := by
    have := walk_head hwalk
    cases L
    case nil => cases this
    case cons d L' =>
      simp only [List.head?_cons, Option.some.injEq] at this
      exact ⟨L', by rw [this]⟩
  have h := getTreePaged_drop hk hwalk hnodup (rootDigest :: L').length 0 none (by simp) (by simp) (by simp)
  simpa using h

-- With a digest visited twice, paging fails both ways. The root's two subdirectories are the same
-- empty directory `e`, so the walk visits `root, e, e`, and one unpaged request lists the three.
-- Pages of two list `e` three times: the second page restarts at the first `e`. Pages of one never
-- end: the page at the token `e` is `e` again, with the token `e`.
theorem get_tree_pages_repeat_directories :
    let cas : DigestInfo → Except Error Directory := fun digest =>
      .ok (if digest = ⟨1, 10⟩ then ⟨[⟨2, 0⟩, ⟨2, 0⟩]⟩ else ⟨[]⟩)
    innerGetTree cas 4 ⟨⟨1, 10⟩, 0, none⟩ = some (.ok ⟨[⟨[⟨2, 0⟩, ⟨2, 0⟩]⟩, ⟨[]⟩, ⟨[]⟩], none⟩) ∧
      getTreePaged cas 4 ⟨1, 10⟩ 2 3 none = some (.ok [⟨[⟨2, 0⟩, ⟨2, 0⟩]⟩, ⟨[]⟩, ⟨[]⟩, ⟨[]⟩]) ∧
      ∀ pages, getTreePaged cas 4 ⟨1, 10⟩ 1 pages none = none := by
  intro cas
  have hfirst : innerGetTree cas 4 ⟨⟨1, 10⟩, 1, none⟩ = some (.ok ⟨[⟨[⟨2, 0⟩, ⟨2, 0⟩]⟩], some ⟨2, 0⟩⟩) := by
    decide +kernel
  have hrepeat : innerGetTree cas 4 ⟨⟨1, 10⟩, 1, some ⟨2, 0⟩⟩ = some (.ok ⟨[⟨[]⟩], some ⟨2, 0⟩⟩) := by
    decide +kernel
  -- from the token `e` on, every request asks for the same page again
  have hforever : ∀ pages, getTreePaged cas 4 ⟨1, 10⟩ 1 pages (some ⟨2, 0⟩) = none := by
    intro pages
    induction pages with
    | zero => rfl
    | succ pages ih => simp only [getTreePaged, hrepeat, ih, Option.map_none]
  refine ⟨by decide +kernel, by decide +kernel, ?_⟩
  intro pages
  cases pages with
  | zero => rfl
  | succ pages => simp only [getTreePaged, hfirst, hforever, Option.map_none]

end Pages

end CasServer

end NativeLink

import LinProg.DesignationData
import LinProg.OptionsData
import LinProg.Proofs.JsonRoundTrip

/-!
# Options stored and read again

Options are read member by member, and what a member writes does not depend on the members before
it: the members of some options that are there put the values of these options in the place of the
defaults, in any order and among members of any other names (`Options.ofMembers_of_perm`). The text
that JSON has for options, and for a designation, is read as the data it was written for, so that
both are read as they were stored.
-/

namespace LinProg

namespace DataFormat

variable {α : Type} [Enumeration α]

theorem decodeMember_memberData (f : DataFormat) (a : α) :
    f.decodeMember α (Options.memberData a) = .ok a := by
  simp only [Options.memberData, decodeMember, decodeName, Enumeration.ofDataName?_dataName]

theorem decodeNat_of_lt (f : DataFormat) {bound n : Nat} (type : String) (h : n < bound) :
    f.decodeNat bound type (.int n) = .ok n := by
  have hbounds : (0 : Int) ≤ n ∧ (n : Int) < bound := by omega
  rw [decodeNat, if_pos hbounds, Int.toNat_natCast]

theorem decodeUInt32_toNat (f : DataFormat) (n : UInt32) :
    f.decodeUInt32 (.int n.toNat) = .ok n := by
  rw [decodeUInt32, f.decodeNat_of_lt "u32" n.toNat_lt]
  exact congrArg Except.ok UInt32.ofNat_toNat

theorem decodeUInt64_toNat (f : DataFormat) (n : UInt64) :
    f.decodeUInt64 (.int n.toNat) = .ok n := by
  rw [decodeUInt64, f.decodeNat_of_lt "u64" n.toNat_lt]
  exact congrArg Except.ok UInt64.ofNat_toNat

end DataFormat

namespace Options

variable {o base : Options} {p q : String → Bool} {f : DataFormat}

/-- The first options, with the named members of the second in their place. -/
def overlay (base o : Options) (named : String → Bool) : Options where
  direction := if named "direction" then o.direction else base.direction
  choice := if named "backend" then o.choice else base.choice
  scaling := if named "scaling" then o.scaling else base.scaling
  verbosity := if named "verbosity" then o.verbosity else base.verbosity
  timeoutSeconds := if named "timeout_secs" then o.timeoutSeconds else base.timeoutSeconds
  throwOnFailure := if named "throw_on_failure" then o.throwOnFailure else base.throwOnFailure

theorem overlay_congr (h : ∀ name ∈ names, p name = q name) :
    base.overlay o p = base.overlay o q := by
  simp only [names, List.forall_mem_cons] at h
  obtain ⟨direction, backend, scaling, verbosity, timeout, throwing, -⟩ := h
  simp only [overlay, direction, backend, scaling, verbosity, timeout, throwing]

theorem overlay_of_none (h : ∀ name ∈ names, p name = false) : base.overlay o p = base :=
  overlay_congr (q := fun _ => false) h

theorem overlay_of_all (h : ∀ name ∈ names, p name = true) : base.overlay o p = o :=
  overlay_congr (q := fun _ => true) h

theorem overlay_overlay (base o : Options) (p q : String → Bool) :
    (base.overlay o p).overlay o q = base.overlay o fun name => p name || q name := by
  have hplace {α : Type} (a b : α) (x y : Bool) :
      (if y then a else if x then a else b) = if x || y then a else b := by
    cases x <;> cases y <;> rfl
  simp only [overlay, hplace]

theorem decodeTimeout_timeoutData (f : DataFormat) (t : Option UInt64) :
    decodeTimeout f (timeoutData t) = .ok t := by
  cases t with
  | none => rfl
  | some seconds =>
    simp only [timeoutData, decodeTimeout, f.decodeUInt64_toNat]
    rfl

/-- A written member brings its own value and changes nothing else. -/
theorem withMember_of_mem {m : String × Data} (h : m ∈ o.toMembers) :
    withMember f base m = .ok (base.overlay o (m.1 == ·)) := by
  simp only [toMembers, List.mem_cons, List.not_mem_nil, or_false] at h
  rcases h with rfl | rfl | rfl | rfl | rfl | rfl
  · simp only [withMember, f.decodeMember_memberData]
    rfl
  · simp only [withMember, f.decodeMember_memberData]
    rfl
  · simp only [withMember, f.decodeUInt32_toNat]
    rfl
  · simp only [withMember, f.decodeMember_memberData]
    rfl
  · simp only [withMember, decodeTimeout_timeoutData]
    rfl
  · rfl

theorem withMember_of_foreign {m : String × Data} (h : m.1 ∉ names) :
    withMember f base m = .ok base := by
  simp only [names, List.mem_cons, not_or] at h
  simp only [withMember]
  split <;> simp_all

/-- Reading members puts those that are there, and only those, in the place of the values before. -/
theorem foldlM_withMember {members : List (String × Data)}
    (h : ∀ m ∈ members, m ∈ o.toMembers ∨ m.1 ∉ names) (base : Options) :
    members.foldlM (withMember f) base =
      .ok (base.overlay o fun name => members.any (·.1 == name)) := by
  induction members generalizing base with
  | nil => rfl
  | cons m members ih =>
    obtain ⟨hm, hmembers⟩ := List.forall_mem_cons.1 h
    have hstep : withMember f base m = .ok (base.overlay o (m.1 == ·)) := by
      rcases hm with hm | hm
      · exact withMember_of_mem hm
      · rw [withMember_of_foreign hm, overlay_of_none]
        intro name hname
        rw [beq_eq_false_iff_ne]
        rintro rfl
        exact hm hname
    rw [List.foldlM_cons, hstep]
    change members.foldlM (withMember f) (base.overlay o (m.1 == ·)) = _
    rw [ih hmembers, overlay_overlay]
    rfl

/-- The options of which only the members are kept that pass, with the others at their defaults. -/
def only (o : Options) (kept : String → Bool) : Options := overlay default o kept

/-- Of the members that pass, one has a name of the options just if the name passes. -/
theorem any_filter_toMembers (o : Options) (kept : String → Bool) {name : String}
    (h : name ∈ names) :
    (o.toMembers.filter fun m => kept m.1).any (·.1 == name) = kept name := by
  have hnames : o.toMembers.map Prod.fst = names := rfl
  calc (o.toMembers.filter fun m => kept m.1).any (·.1 == name)
      = (o.toMembers.map Prod.fst).any fun n => kept n && n == name := by
        rw [List.any_filter, List.any_map]
        rfl
    _ = names.any fun n => kept n && n == name := by rw [hnames]
    _ = kept name := by
        rw [Bool.eq_iff_iff, List.any_eq_true]
        constructor
        · rintro ⟨n, -, hn⟩
          obtain ⟨hkept, heq⟩ := Bool.and_eq_true_iff.1 hn
          rwa [beq_iff_eq.1 heq] at hkept
        · intro hkept
          exact ⟨name, h, by simp [hkept]⟩

/-- Of the members of options, those that are there are read, in any order and among any others. -/
theorem ofMembers_of_perm (o : Options) (kept : String → Bool)
    {foreign members : List (String × Data)} (hforeign : ∀ m ∈ foreign, m.1 ∉ names)
    (h : members.Perm ((o.toMembers.filter fun m => kept m.1) ++ foreign)) :
    ofMembers f members = .ok (o.only kept) := by
  have hmembers : ∀ m ∈ members, m ∈ o.toMembers ∨ m.1 ∉ names := by
    intro m hm
    rcases List.mem_append.1 (h.subset hm) with hm | hm
    · exact .inl ((List.mem_filter.1 hm).1)
    · exact .inr (hforeign m hm)
  rw [ofMembers, foldlM_withMember hmembers, only]
  refine congrArg Except.ok (overlay_congr ?_)
  intro name hname
  have hothers : foreign.any (·.1 == name) = false := by
    rw [List.any_eq_false]
    rintro m hm heq
    exact hforeign m hm (by rwa [beq_iff_eq.1 heq])
  rw [h.any_eq, List.any_append, o.any_filter_toMembers kept hname, hothers, Bool.or_false]

theorem storable_toData (o : Options) : Json.Storable Json.depth o.toData := by
  have htimeout : Json.Storable 126 (timeoutData o.timeoutSeconds) := by
    cases o.timeoutSeconds with
    | none => exact .null
    | some seconds =>
      have hlt := seconds.toNat_lt
      exact .int ⟨by omega, by omega⟩
  have hscaling : Json.Storable 126 (.int o.scaling.bits.toNat) := by
    have hlt := o.scaling.bits.toNat_lt
    exact .int ⟨by omega, by omega⟩
  refine .table (n := 126) (fun m hm => ?_) (by decide : names.Nodup)
  simp only [toMembers, List.mem_cons, List.not_mem_nil, or_false] at hm
  rcases hm with rfl | rfl | rfl | rfl | rfl | rfl
  · exact .text _
  · exact .text _
  · exact hscaling
  · exact .text _
  · exact htimeout
  · exact .bool _

end Options

namespace Designation

theorem ofData_toData (d : Designation) : ofData d.toData = .ok d := by
  cases d with
  | uniform flag => rfl
  | perVariable flags =>
    have hflags : (flags.map Data.bool).mapM flag? = some flags := by
      induction flags with
      | nil => rfl
      | cons flag flags ih =>
        rw [List.map_cons, List.mapM_cons, ih]
        rfl
    simp only [toData, ofData, hflags]
    rfl

theorem storable_toData (d : Designation) : Json.Storable Json.depth d.toData := by
  cases d with
  | uniform flag => exact .bool flag
  | perVariable flags =>
    refine .list (n := 126) fun d hd => ?_
    obtain ⟨flag, -, rfl⟩ := List.mem_map.1 hd
    exact .bool flag

end Designation

namespace Options

/-- Of options of which members are lost, and that stand in any order among members of any other
names, what is left is read, with defaults in the place of what is lost. Also from a text, if JSON
has one for the members. Options and designations that were stored are read as they were. -/
theorem stored_read_back :
    (∀ (o : Options) (kept : String → Bool) (foreign members : List (String × Data)),
      (∀ m ∈ foreign, m.1 ∉ names) →
      members.Perm ((o.toMembers.filter fun m => kept m.1) ++ foreign) →
        ofData .json (.table members) = .ok (o.only kept) ∧
        (Json.Storable Json.depth (.table members) →
          (Json.read? (String.ofList (Json.write (.table members)))).map (ofData .json) =
            some (.ok (o.only kept)))) ∧
    (∀ (o : Options) (foreign members : List (String × Data)), (∀ m ∈ foreign, m.1 ∉ names) →
      members.Perm (o.toMembers ++ foreign) → ofData .json (.table members) = .ok o) ∧
    (∀ o : Options, (Json.read? (String.ofList (Json.write o.toData))).map (ofData .json) =
      some (.ok o)) ∧
    ∀ d : Designation, Designation.ofData d.toData = .ok d ∧
      (Json.read? (String.ofList (Json.write d.toData))).map Designation.ofData =
        some (.ok d) := by
  have hwhole (o : Options) (foreign members : List (String × Data))
      (hforeign : ∀ m ∈ foreign, m.1 ∉ names) (h : members.Perm (o.toMembers ++ foreign)) :
      ofData .json (.table members) = .ok o := by
    have hall : (o.toMembers.filter fun _ => true) = o.toMembers :=
      List.filter_eq_self.2 fun _ _ => rfl
    have hread : ofData .json (.table members) = .ok (o.only fun _ => true) :=
      o.ofMembers_of_perm _ hforeign (by rwa [hall])
    rwa [only, overlay_of_all fun _ _ => rfl] at hread
  refine ⟨?_, hwhole, ?_, ?_⟩
  · intro o kept foreign members hforeign h
    have hread : ofData .json (.table members) = .ok (o.only kept) :=
      o.ofMembers_of_perm kept hforeign h
    refine ⟨hread, fun storable => ?_⟩
    rw [Json.read?_write storable, Option.map_some, hread]
  · intro o
    have hread : ofData .json o.toData = .ok o :=
      hwhole o [] o.toMembers nofun (by rw [List.append_nil])
    rw [Json.read?_write o.storable_toData, Option.map_some, hread]
  · intro d
    rw [Json.read?_write d.storable_toData, Option.map_some, d.ofData_toData]
    exact ⟨rfl, rfl⟩

def limitedOptions : Options :=
  { direction := .maximize, timeoutSeconds := some 60, throwOnFailure := true }

/-- The direction and the limit, behind a member of another name. -/
def rearrangedMembers : List (String × Data) :=
  [("seed", .list [.null]), ("timeout_secs", .int 60), ("direction", .text "maximize")]

theorem rearrangedMembers_storable : Json.Storable Json.depth (.table rearrangedMembers) := by
  refine .table (n := 126) (fun m hm => ?_) (by decide)
  simp only [rearrangedMembers, List.mem_cons, List.not_mem_nil, or_false] at hm
  rcases hm with rfl | rfl | rfl
  · refine .list (n := 125) fun d hd => ?_
    rw [List.mem_singleton.1 hd]
    exact .null
  · exact .int ⟨by decide, by decide⟩
  · exact .text _

theorem rearrangedMembers_read_back :
    (∀ m ∈ [("seed", Data.list [.null])], m.1 ∉ names) ∧
      rearrangedMembers.Perm ((limitedOptions.toMembers.filter fun m =>
        ["direction", "timeout_secs"].contains m.1) ++ [("seed", .list [.null])]) ∧
      ofData .json (.table rearrangedMembers) =
        .ok { direction := .maximize, timeoutSeconds := some 60 } ∧
      (Json.read? (String.ofList (Json.write (.table rearrangedMembers)))).map (ofData .json) =
        some (.ok { direction := .maximize, timeoutSeconds := some 60 }) := by
  have hforeign : ∀ m ∈ [("seed", Data.list [.null])], m.1 ∉ names := by decide
  have hkept : (limitedOptions.toMembers.filter fun m =>
      ["direction", "timeout_secs"].contains m.1) =
        [("direction", .text "maximize"), ("timeout_secs", .int 60)] := by
    have hdirection : memberData Direction.maximize = .text "maximize" := rfl
    have hlimit : timeoutData (some 60) = .int 60 := rfl
    simp [limitedOptions, toMembers, hdirection, hlimit]
  have hperm : rearrangedMembers.Perm ((limitedOptions.toMembers.filter fun m =>
      ["direction", "timeout_secs"].contains m.1) ++ [("seed", .list [.null])]) := by
    rw [hkept]
    exact List.reverse_perm [("direction", _), ("timeout_secs", _), ("seed", _)]
  obtain ⟨hread, htext⟩ := stored_read_back.1 _ _ _ _ hforeign hperm
  exact ⟨hforeign, hperm, hread, htext rearrangedMembers_storable⟩

end Options

end LinProg

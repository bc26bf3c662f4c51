import DjangoBoilerplate.Lowercase
import DjangoBoilerplate.RbacBackend

/-!
# Module visibility

`has_module_perms` scans the registry for keys that start with `"<app_label>.".lower()`.
`has_perm` looks up `"<app_label>.<model_name>".lower()`. The one is a prefix of the other
unless the label ends in a capital sigma: lowered before the full stop alone it is a final
sigma, lowered before a model name it is not. For such a label a permission on a model does
not make the app visible (`module_perms_iff`).
-/

namespace DjangoBoilerplate

namespace Rbac

/-! ## The registry -/

section Registry

variable {u : Casing} {calls : List (Str × Str)} {d : Registry}

/-- A registry built by some of the calls: no key twice, each the lower case of a name. -/
structure Built (u : Casing) (calls : List (Str × Str)) (d : Registry) : Prop where
  /-- no key twice -/
  nodup : (keysOf d).Nodup
  /-- each key is from a call -/
  mem : ∀ key ∈ keysOf d, ∃ c ∈ calls, u.lower c.1 = key

theorem Built.register (hd : Built u calls d) {c : Str × Str} (hc : c ∈ calls) :
    Built u calls ((registerResource u d c.1 c.2).getD d) := by
  rw [registerResource]
  split
  · refine ⟨nodup_setItem hd.nodup _ _, ?_⟩
    intro key hkey
    rw [Option.getD_some, mem_keysOf_setItem] at hkey
    rcases hkey with rfl | hkey
    · exact ⟨c, hc, rfl⟩
    · exact hd.mem key hkey
  · split
    · exact hd
    · exact hd

theorem built_registered (u : Casing) (calls : List (Str × Str)) :
    Built u calls (registered u calls) := by
  have hfold : ∀ (cs : List (Str × Str)) (d : Registry), cs ⊆ calls → Built u calls d →
      Built u calls (cs.foldl (fun d c => (registerResource u d c.1 c.2).getD d) d) := by
    intro cs
    induction cs with
    | nil =>
      intro d _ hd
      exact hd
    | cons c cs ih =>
      intro d hcs hd
      obtain ⟨hc, hcs⟩ := List.cons_subset.mp hcs
      exact ih _ hcs (hd.register hc)
  refine hfold calls [] (List.Subset.refl calls) ⟨List.nodup_nil, ?_⟩
  intro key hkey
  cases hkey

theorem mem_appResources {appLabel resource : Str} :
    resource ∈ appResources u d appLabel ↔
      ∃ key, (key, resource) ∈ d ∧ u.lower (appLabel ++ ['.']) <+: key := by
  simp [appResources]

end Registry

/-! ## What the backend answers -/

section Answers

variable {u : Casing} {d : Registry} {user : User} {appLabel : Str}

/-- One of the user's roles has the permission. -/
def User.Granted (user : User) (p : Permission) : Prop :=
  match user with
  | .anonymous => False
  | .account a => ∃ role ∈ a.roles, p ∈ role.permissions

/-- A query over the roles finds what one of them has. -/
theorem any_granted_iff {a : Account} {f : Permission → Bool} :
    (a.roles.any fun role => role.permissions.any f) = true ↔
      ∃ p, (User.account a).Granted p ∧ f p = true := by
  simp only [User.Granted, List.any_eq_true]
  refine ⟨?_, ?_⟩
  · rintro ⟨role, hrole, p, hp, hf⟩
    exact ⟨p, ⟨role, hrole, hp⟩, hf⟩
  · rintro ⟨p, ⟨role, hrole, hp⟩, hf⟩
    exact ⟨role, hrole, p, hp, hf⟩

theorem holds_iff {resource action : Str} : user.holds resource action = true ↔
    ∃ p, user.Granted p ∧ p.resource.value = resource ∧ p.action.value = action := by
  cases user with
  | anonymous => simp [User.holds, User.Granted]
  | account a =>
    rw [User.holds, Account.holds, any_granted_iff]
    simp only [Bool.and_eq_true, beq_iff_eq]

theorem holdsAny_iff {resources : List Str} : user.holdsAny resources = true ↔
    ∃ p, user.Granted p ∧ p.resource.value ∈ resources := by
  cases user with
  | anonymous => simp [User.holdsAny, User.Granted]
  | account a =>
    rw [User.holdsAny, any_granted_iff]
    simp only [List.contains_iff_mem]

/-- `has_module_perms` of an active user without a superuser role. -/
theorem hasModulePerms_iff (hactive : user.isActive = true)
    (hsuper : user.hasSuperuserRole = false) :
    hasModulePerms u d user appLabel = true ↔ ∃ p key, user.Granted p ∧
      (key, p.resource.value) ∈ d ∧ u.lower (appLabel ++ ['.']) <+: key := by
  have hany : hasModulePerms u d user appLabel = user.holdsAny (appResources u d appLabel) := by
    simp only [hasModulePerms, hactive, hsuper]
    cases hresources : appResources u d appLabel with
    | nil =>
      cases user <;> simp [User.holdsAny]
    | cons r rs => rfl
  rw [hany, holdsAny_iff]
  simp only [mem_appResources]
  refine ⟨?_, ?_⟩
  · rintro ⟨p, hp, key, hkey, hstarts⟩
    exact ⟨p, key, hp, hkey, hstarts⟩
  · rintro ⟨p, key, hp, hkey, hstarts⟩
    exact ⟨p, hp, key, hkey, hstarts⟩

/-- Every action has a name in permission strings. -/
theorem exists_actionName (action : Action) :
    ∃ actionName, getItem permActionMap actionName = some action := by
  cases action with
  | create => exact ⟨"add".toList, by decide⟩
  | read => exact ⟨"view".toList, by decide⟩
  | update => exact ⟨"change".toList, by decide⟩
  | delete => exact ⟨"delete".toList, by decide⟩

/-- `has_perm` of such a user, for the models of an app. -/
theorem exists_hasPerm_iff (hactive : user.isActive = true)
    (hsuper : user.hasSuperuserRole = false) (happ : '.' ∉ appLabel) :
    (∃ actionName ∈ keysOf permActionMap, ∃ modelName,
        hasPerm u d user (permString appLabel actionName modelName) = true) ↔
      ∃ p modelName, user.Granted p ∧ '.' ∉ modelName ∧
        resourceFor u d appLabel modelName = some p.resource.value := by
  refine ⟨?_, ?_⟩
  · rintro ⟨actionName, hname, modelName, hperm⟩
    obtain ⟨action, haction⟩ := Option.isSome_iff_exists.mp (getItem_isSome_iff.mpr hname)
    have hmodel : '.' ∉ modelName := by
      intro hdot
      rw [hasPerm_of_parse_none hsuper (parsePerm_of_dot (.inr hdot))] at hperm
      cases hperm
    have hparse := parsePerm_permString haction happ hmodel
    cases hresource : resourceFor u d appLabel modelName with
    | none => simp [hasPerm, hactive, hsuper, hparse, haction, hresource, truthy] at hperm
    | some resource =>
      rw [hasPerm_of_parse hactive hsuper haction hresource hparse] at hperm
      obtain ⟨p, hp, rfl, -⟩ := holds_iff.mp hperm
      exact ⟨p, modelName, hp, hmodel, hresource⟩
  · rintro ⟨p, modelName, hp, hmodel, hresource⟩
    obtain ⟨actionName, haction⟩ := exists_actionName p.action
    refine ⟨actionName, ?_, modelName, ?_⟩
    · rw [← getItem_isSome_iff, haction]
      rfl
    · rw [hasPerm_of_parse hactive hsuper haction hresource
        (parsePerm_permString haction happ hmodel), holds_iff]
      exact ⟨p, hp, rfl, rfl⟩

end Answers

/-! ## Visibility -/

section Visibility

variable {t : CaseTable} {appLabel : Str} {calls : List (Str × Str)} {user : User}

/-- A name with one dot is lowered to a key with one. -/
theorem exists_key_of_count {name : Str} (h : name.count '.' = 1) :
    ∃ x y, t.lower name = x ++ '.' :: y ∧ '.' ∉ x ∧ '.' ∉ y := by
  have hmem : '.' ∈ name := List.count_pos_iff.mp (by omega)
  obtain ⟨x, y, rfl, hx⟩ := List.eq_append_cons_of_mem hmem
  have hy : '.' ∉ y := by
    rw [List.count_append, List.count_eq_zero_of_not_mem hx, List.count_cons_self] at h
    exact List.count_eq_zero.mp (by omega)
  exact ⟨_, _, CaseTable.lower_append_dot x y, CaseTable.dot_not_mem_lowerIn hx,
    CaseTable.dot_not_mem_lowerIn hy⟩

/-- **A key under the label's prefix is that of a model**, whose name it ends in. -/
theorem exists_model_of_key (hlabel : ¬ t.EndsInFinalSigma appLabel) {name : Str}
    (hname : name.count '.' = 1)
    (hkey : t.lower (appLabel ++ ['.']) <+: t.lower name) :
    ∃ modelName, '.' ∉ modelName ∧ t.lower (appLabel ++ '.' :: modelName) = t.lower name := by
  obtain ⟨x, y, hxy, hx, hy⟩ := exists_key_of_count (t := t) hname
  obtain ⟨modelName, hrest⟩ := hkey
  rw [CaseTable.lower_dot, List.append_assoc, List.singleton_append] at hrest
  have hsplit : x ++ '.' :: y = t.lowerIn [] ['.'] appLabel ++ '.' :: modelName := by
    rw [hrest, hxy]
  obtain ⟨-, -, rfl⟩ := (List.append_cons_inj_of_notMem hx hy).mp hsplit
  refine ⟨y, hy, ?_⟩
  -- the key is lower case already, and so is the model name taken from it
  have hstable : ∀ c ∈ y, t.Stable c := by
    intro c hc
    have hmem : c ∈ t.lower name := by
      rw [hxy]
      exact List.mem_append_right x (List.mem_cons_of_mem _ hc)
    exact CaseTable.stable_of_mem_lowerIn hmem
  rw [CaseTable.lower_append_dot_of_not_final hlabel, CaseTable.lowerIn_of_stable hstable, hrest]

/-- The key of a model starts with the label's prefix. -/
theorem lower_dot_prefix_model (hlabel : ¬ t.EndsInFinalSigma appLabel) (modelName : Str) :
    t.lower (appLabel ++ ['.']) <+: t.lower (appLabel ++ '.' :: modelName) := by
  rw [CaseTable.lower_dot, CaseTable.lower_append_dot_of_not_final hlabel]
  exact ⟨t.lowerIn ('.' :: appLabel.reverse) [] modelName, by simp⟩

/-- For a label without a final sigma the app is visible exactly if one of its models is. -/
theorem visible_iff (hlabel : ¬ t.EndsInFinalSigma appLabel) (happ : '.' ∉ appLabel)
    (hcalls : ∀ c ∈ calls, c.1.count '.' = 1) :
    hasModulePerms t.casing (registered t.casing calls) user appLabel = true ↔
      ∃ actionName ∈ keysOf permActionMap, ∃ modelName,
        hasPerm t.casing (registered t.casing calls) user
          (permString appLabel actionName modelName) = true := by
  have hbuilt := built_registered t.casing calls
  cases hactive : user.isActive with
  | false => simp [hasModulePerms, hasPerm, hactive]
  | true =>
    cases hsuper : user.hasSuperuserRole with
    | true =>
      have hview : "view".toList ∈ keysOf permActionMap := by decide
      refine ⟨?_, ?_⟩
      · intro _
        exact ⟨_, hview, [], by simp [hasPerm, hactive, hsuper]⟩
      · intro _
        simp [hasModulePerms, hactive, hsuper]
    | false =>
      rw [hasModulePerms_iff hactive hsuper, exists_hasPerm_iff hactive hsuper happ]
      refine ⟨?_, ?_⟩
      · rintro ⟨p, key, hp, hkey, hstarts⟩
        obtain ⟨c, hc, rfl⟩ := hbuilt.mem key (List.mem_map.mpr ⟨_, hkey, rfl⟩)
        obtain ⟨modelName, hmodel, heq⟩ := exists_model_of_key hlabel (hcalls c hc) hstarts
        have hlower : t.casing.lower (appLabel ++ '.' :: modelName) = t.casing.lower c.1 := heq
        refine ⟨p, modelName, hp, hmodel, ?_⟩
        rw [resourceFor, hlower]
        exact getItem_of_mem hbuilt.nodup hkey
      · rintro ⟨p, modelName, hp, -, hresource⟩
        exact ⟨p, _, hp, mem_of_getItem hresource, lower_dot_prefix_model hlabel modelName⟩

/-- One model of the app, registered. -/
def oneModel (appLabel : Str) : List (Str × Str) :=
  [(appLabel ++ ['.', 'm'], Resource.account.value)]

theorem count_oneModel (happ : '.' ∉ appLabel) : ∀ c ∈ oneModel appLabel, c.1.count '.' = 1 := by
  intro c hc
  obtain rfl := List.mem_singleton.mp hc
  rw [List.count_append, List.count_eq_zero_of_not_mem happ]
  rfl

/-- A reader has a permission on the model, -/
theorem hasPerm_oneModel (happ : '.' ∉ appLabel) : ∃ actionName ∈ keysOf permActionMap,
    ∃ modelName, hasPerm t.casing (registered t.casing (oneModel appLabel)) (.account reader)
      (permString appLabel actionName modelName) = true := by
  have haction : getItem permActionMap "view".toList = some .read := by decide
  have hresource : resourceFor t.casing (registered t.casing (oneModel appLabel)) appLabel ['m'] =
      some Resource.account.value := by
    simp [resourceFor, registered, oneModel, registerResource, getItem, setItem]
  refine ⟨"view".toList, by decide, ['m'], ?_⟩
  rw [hasPerm_of_parse rfl rfl haction hresource
    (parsePerm_permString haction happ (by decide))]
  decide

/-- and does not see the app if its label ends in a final sigma. -/
theorem not_visible_of_final (hlabel : t.EndsInFinalSigma appLabel) :
    hasModulePerms t.casing (registered t.casing (oneModel appLabel)) (.account reader) appLabel =
      false := by
  have hkeys : ¬ t.casing.lower (appLabel ++ ['.']) <+: t.casing.lower (appLabel ++ ['.', 'm']) :=
    CaseTable.not_prefix_of_final hlabel
  have hactive : (User.account reader).isActive = true := rfl
  have hsuper : (User.account reader).hasSuperuserRole = false := rfl
  rw [← Bool.not_eq_true, hasModulePerms_iff hactive hsuper]
  rintro ⟨p, key, -, hkey, hstarts⟩
  obtain ⟨rfl, -⟩ := Prod.mk.inj (List.mem_singleton.mp hkey)
  exact hkeys hstarts

/-- **An app is visible exactly if one of its models is, for every user and every registry,
unless its label ends in a final sigma.** -/
theorem module_perms_iff (t : CaseTable) (happ : '.' ∉ appLabel) :
    (∀ calls : List (Str × Str), (∀ c ∈ calls, c.1.count '.' = 1) → ∀ user : User,
      (hasModulePerms t.casing (registered t.casing calls) user appLabel = true ↔
        ∃ actionName ∈ keysOf permActionMap, ∃ modelName,
          hasPerm t.casing (registered t.casing calls) user
            (permString appLabel actionName modelName) = true)) ↔
      ¬ t.EndsInFinalSigma appLabel := by
  refine ⟨?_, ?_⟩
  · intro h hlabel
    have hvisible := (h _ (count_oneModel happ) (.account reader)).mpr (hasPerm_oneModel happ)
    cases (not_visible_of_final hlabel).symm.trans hvisible
  · intro hlabel calls hcalls user
    exact visible_iff hlabel happ hcalls

/-- A reader of the models of `ΑΣ` does not see the app. -/
theorem sigma_app_hidden :
    ¬ ∀ (t : CaseTable) (appLabel : Str) (calls : List (Str × Str)) (user : User),
      '.' ∉ appLabel → (∀ c ∈ calls, c.1.count '.' = 1) →
      (hasModulePerms t.casing (registered t.casing calls) user appLabel = true ↔
        ∃ actionName ∈ keysOf permActionMap, ∃ modelName,
          hasPerm t.casing (registered t.casing calls) user
            (permString appLabel actionName modelName) = true) := by
  intro halways
  have happ : '.' ∉ ['Α', 'Σ'] := by decide
  have hlabel : CaseTable.greek.EndsInFinalSigma ['Α', 'Σ'] := by
    refine ⟨['Α'], [], rfl, ?_, by decide⟩
    intro c hc
    cases hc
  have hvisible := (halways CaseTable.greek ['Α', 'Σ'] (oneModel ['Α', 'Σ']) (.account reader) happ
    (count_oneModel happ)).mpr (hasPerm_oneModel happ)
  cases (not_visible_of_final hlabel).symm.trans hvisible

/-- `accounts` is visible exactly to the users of its models. -/
theorem accounts_visible_iff :
    ¬ CaseTable.greek.EndsInFinalSigma "accounts".toList ∧
      ∀ calls : List (Str × Str), (∀ c ∈ calls, c.1.count '.' = 1) → ∀ user : User,
        (hasModulePerms CaseTable.greek.casing (registered CaseTable.greek.casing calls) user
            "accounts".toList = true ↔
          ∃ actionName ∈ keysOf permActionMap, ∃ modelName,
            hasPerm CaseTable.greek.casing (registered CaseTable.greek.casing calls) user
              (permString "accounts".toList actionName modelName) = true) := by
  have hlabel : ¬ CaseTable.greek.EndsInFinalSigma "accounts".toList := by
    rintro ⟨p, q, hpq, -⟩
    have hmem : 'Σ' ∈ "accounts".toList := by
      rw [hpq]
      exact List.mem_append_right p List.mem_cons_self
    revert hmem
    decide
  exact ⟨hlabel, (module_perms_iff CaseTable.greek (by decide)).mpr hlabel⟩

end Visibility

end Rbac

end DjangoBoilerplate

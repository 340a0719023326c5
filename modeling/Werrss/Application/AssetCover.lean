import Mathlib.Data.List.Perm.Subperm
import Mathlib.Data.List.Sigma
import Werrss.Application.SyncService

/-!
# Application/AssetCover — a complete asset set is an exact cover

    external   url₀  url₁  …  urlₙ          one asset for each index,
                │     │        │            in any order
    fetched   (url₀,0) (url₁,1) … (urlₙ,n)

`complete_asset_set` counts: as many assets as images, and for each image exactly one asset that
names it and its place.  The places are all different, so **an asset that names no place has no room
left**.
-/

open Machinery

namespace Werrss

variable {Url : Type} {externalAssets : List Url} {fetchedAssets : List (AssetInput Url)}

/-- What an asset names: an image, and its place. -/
def AssetInput.place (asset : AssetInput Url) : Url × ℕ := (asset.sourceUrl, asset.occurrence)

/-- **Up to order, one asset for each index of the images.** -/
def Covers (externalAssets : List Url) (fetchedAssets : List (AssetInput Url)) : Prop :=
  (fetchedAssets.map AssetInput.place).Perm externalAssets.zipIdx

/-- No URL involved carries a provider signature. -/
def Unsigned [UrlCrate Url] (externalAssets : List Url) (fetchedAssets : List (AssetInput Url)) :
    Prop :=
  (∀ url ∈ externalAssets, hasProviderSignature url = false) ∧
    ∀ asset ∈ fetchedAssets, hasProviderSignature asset.sourceUrl = false ∧
      hasProviderSignature asset.finalUrl = false ∧ hasProviderSignature asset.refererUrl = false

theorem nodup_zipIdx (externalAssets : List Url) : externalAssets.zipIdx.Nodup :=
  .of_map Prod.snd (List.nodup_zipIdx_map_snd externalAssets)

/-- **Every place is named, and there are as many assets as places**: the assets are a cover. -/
theorem covers_of_places (hlength : externalAssets.length = fetchedAssets.length)
    (hplaces : ∀ place ∈ externalAssets.zipIdx, place ∈ fetchedAssets.map AssetInput.place) :
    Covers externalAssets fetchedAssets := by
  have hsub := (nodup_zipIdx externalAssets).subperm hplaces
  refine (hsub.perm_of_length_le ?_).symm
  rw [List.length_map, List.length_zipIdx]
  exact hlength.ge

theorem Covers.length_eq (h : Covers externalAssets fetchedAssets) :
    externalAssets.length = fetchedAssets.length := by
  have hlength := List.Perm.length_eq h
  rw [List.length_map, List.length_zipIdx] at hlength
  exact hlength.symm

/-- Another asset in the place of one makes another list of places. -/
theorem Covers.place_eq {before after : List (AssetInput Url)} {asset other : AssetInput Url}
    (h : Covers externalAssets (before ++ asset :: after))
    (hother : Covers externalAssets (before ++ other :: after)) : other.place = asset.place := by
  have hperm := hother.trans h.symm
  rw [List.map_append, List.map_append, List.perm_append_left_iff, List.map_cons, List.map_cons]
    at hperm
  classical
  by_contra hne
  have hcount := hperm.count_eq other.place
  rw [List.count_cons_self, List.count_cons_of_ne (Ne.symm hne)] at hcount
  omega

variable [DecidableEq Url]

/-- The assets that name a place are counted among the places. -/
theorem length_filter_place (url : Url) (index : ℕ) :
    (fetchedAssets.filter fun asset => asset.occurrence = index ∧ asset.sourceUrl = url).length
      = (fetchedAssets.map AssetInput.place).count (url, index) := by
  rw [List.count, List.countP_map, List.countP_eq_length_filter]
  refine congrArg List.length (List.filter_congr fun asset _ => ?_)
  rw [Function.comp, beq_eq_decide, AssetInput.place]
  refine decide_eq_decide.mpr ?_
  rw [Prod.mk.injEq]
  exact and_comm

variable [UrlCrate Url]

theorem completeAssetSet_iff : completeAssetSet externalAssets fetchedAssets = true ↔
    externalAssets.length = fetchedAssets.length ∧ Unsigned externalAssets fetchedAssets ∧
      ∀ place ∈ externalAssets.zipIdx, place.2 < UInt32.size ∧
        (fetchedAssets.map AssetInput.place).count place = 1 := by
  simp only [completeAssetSet, Unsigned, Bool.and_eq_true, beq_iff_eq, List.all_eq_true,
    Bool.not_eq_true', decide_eq_true_eq, length_filter_place, and_assoc]

/-- **A complete set is a cover without signatures.** -/
theorem covers_of_completeAssetSet (h : completeAssetSet externalAssets fetchedAssets = true) :
    Unsigned externalAssets fetchedAssets ∧ Covers externalAssets fetchedAssets := by
  obtain ⟨hlength, hunsigned, hplaces⟩ := completeAssetSet_iff.mp h
  refine ⟨hunsigned, covers_of_places hlength fun place hplace => ?_⟩
  refine List.count_pos_iff.mp ?_
  rw [(hplaces place hplace).2]
  exact Nat.one_pos

theorem completeAssetSet_of_covers (hunsigned : Unsigned externalAssets fetchedAssets)
    (hcovers : Covers externalAssets fetchedAssets)
    (hoccurrence : ∀ asset ∈ fetchedAssets, asset.occurrence < UInt32.size) :
    completeAssetSet externalAssets fetchedAssets = true := by
  refine completeAssetSet_iff.mpr ⟨hcovers.length_eq, hunsigned, fun place hplace => ⟨?_, ?_⟩⟩
  · obtain ⟨asset, hasset, rfl⟩ := List.mem_map.mp (hcovers.mem_iff.mpr hplace)
    exact hoccurrence asset hasset
  · rw [hcovers.count_eq]
    exact List.count_eq_one_of_mem (nodup_zipIdx externalAssets) hplace

variable (externalAssets) in
/-- **`complete_asset_set` characterises the exact covers.**  It does not look at the order of the
assets, and no asset of a complete set can be missed, come twice, or stand in another place. -/
theorem complete_asset_set_is_exact_cover
    (hoccurrence : ∀ asset ∈ fetchedAssets, asset.occurrence < UInt32.size) :
    (completeAssetSet externalAssets fetchedAssets = true ↔
        Unsigned externalAssets fetchedAssets ∧ Covers externalAssets fetchedAssets) ∧
      (∀ reordered : List (AssetInput Url), reordered.Perm fetchedAssets →
        completeAssetSet externalAssets reordered
          = completeAssetSet externalAssets fetchedAssets) ∧
      (completeAssetSet externalAssets fetchedAssets = true →
        ∀ before asset after, fetchedAssets = before ++ asset :: after →
          completeAssetSet externalAssets (before ++ after) = false ∧
          completeAssetSet externalAssets (before ++ asset :: asset :: after) = false ∧
          ∀ occurrence, occurrence ≠ asset.occurrence →
            completeAssetSet externalAssets
              (before ++ { asset with occurrence := occurrence } :: after) = false) := by
  have hiff : completeAssetSet externalAssets fetchedAssets = true ↔
      Unsigned externalAssets fetchedAssets ∧ Covers externalAssets fetchedAssets :=
    ⟨covers_of_completeAssetSet, fun h => completeAssetSet_of_covers h.1 h.2 hoccurrence⟩
  refine ⟨hiff, fun reordered hperm => ?_, fun hcomplete before asset after heq => ?_⟩
  · refine Bool.eq_iff_iff.mpr ?_
    rw [completeAssetSet_iff, completeAssetSet_iff, hperm.length_eq, Unsigned, Unsigned]
    simp only [hperm.mem_iff, (hperm.map AssetInput.place).count_eq]
  · subst heq
    have hcovers := (hiff.mp hcomplete).2
    have hlength := hcovers.length_eq
    rw [List.length_append, List.length_cons] at hlength
    refine ⟨?_, ?_, fun occurrence hne => ?_⟩
    · refine Bool.eq_false_iff.mpr fun h => ?_
      have hless := (covers_of_completeAssetSet h).2.length_eq
      rw [List.length_append] at hless
      omega
    · refine Bool.eq_false_iff.mpr fun h => ?_
      have hmore := (covers_of_completeAssetSet h).2.length_eq
      rw [List.length_append, List.length_cons, List.length_cons] at hmore
      omega
    · refine Bool.eq_false_iff.mpr fun h => hne ?_
      exact congrArg Prod.snd (hcovers.place_eq (covers_of_completeAssetSet h).2)

/-- An image at an index. -/
def placedAsset (url : PlainUrl) (occurrence : ℕ) : AssetInput PlainUrl where
  sourceUrl := url
  finalUrl := url
  mediaType := "image/png"
  bytes := [1]
  occurrence := occurrence
  refererUrl := url
  origin := none
  userAgent := none
  checksum := "c"
  preparationId := ⟨occurrence⟩

def firstPlace : PlainUrl := ⟨"https://a/p", isPlainText_firstImage⟩

def secondPlace : PlainUrl := ⟨"https://a/q", isPlainText_secondImage⟩

/-- Two images, fetched in the other order. -/
def swappedAssets : List (AssetInput PlainUrl) :=
  [placedAsset secondPlace 1, placedAsset firstPlace 0]

/-- A complete set stays one in the other order, and is none without its last asset. -/
theorem complete_asset_set_is_exact_cover_swapped :
    completeAssetSet [firstPlace, secondPlace] swappedAssets.reverse = true ∧
      completeAssetSet [firstPlace, secondPlace] [placedAsset secondPlace 1] = false := by
  have hoccurrence : ∀ asset ∈ swappedAssets, asset.occurrence < UInt32.size := by decide
  have hcomplete : completeAssetSet [firstPlace, secondPlace] swappedAssets = true := by
    decide +kernel
  obtain ⟨-, hreordered, haltered⟩ :=
    complete_asset_set_is_exact_cover [firstPlace, secondPlace] hoccurrence
  refine ⟨(hreordered _ (List.reverse_perm _)).trans hcomplete, ?_⟩
  exact (haltered hcomplete [placedAsset secondPlace 1] (placedAsset firstPlace 0) [] rfl).1

end Werrss

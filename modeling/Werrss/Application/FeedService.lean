import Werrss.Rss.Renderer

/-!
# Application/FeedService — delivering a cached feed

    read cache ── fresh and compatible ──▸ deliver
        └─ otherwise ── rebuild ── wait for a fresh, compatible cache ──▸ deliver | stale | unavailable

`is_compatible` looks for asset URLs of the wrong format anywhere in the cached XML.  The answers of
the cache, the rebuilder and the queue are arguments; the wait loop reads once and then again until
its deadline, so its reads are a non-empty list.
-/

open Machinery

namespace Werrss

/-! ## The asset URL policy -/

/-- The asset URL format required in delivered feed documents. -/
structure FeedAssetUrlPolicy (Url : Type) where
  serverRootUrl : Url
  useAbsoluteUrls : Bool

namespace FeedAssetUrlPolicy

variable {Url : Type} [UrlCrate Url]

/-- The root the rebuild path renders with. -/
def assetUrlRoot (self : FeedAssetUrlPolicy Url) : Option Url :=
  if self.useAbsoluteUrls then some self.serverRootUrl else none

end FeedAssetUrlPolicy

/-! ## Delivery -/

section Service

variable (compatible : Html → Bool)

end Service

end Werrss

import MarketFeed.Client
import MarketFeed.Loopback
import MarketFeed.Proofs.Client.Rest
import MarketFeed.Proofs.Session.Streams

namespace MarketFeed

namespace EventKind

end EventKind

namespace Client

variable {σ : Type} {V : Vendor σ} {vendor : σ} {c d : Client σ} {t : Session σ} {m : Move}
  {ms : List Move} {kind : EventKind}

end Client

end MarketFeed

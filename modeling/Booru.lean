import Booru.Main
import Booru.Proofs.Blacklist.Extension
import Booru.Proofs.Command.Ending
import Booru.Proofs.Download.Confinement
import Booru.Proofs.Download.Resumption
import Booru.Proofs.Grabber.Declarations
import Booru.Proofs.Grabber.Delays
import Booru.Proofs.Grabber.Soundness
import Booru.Proofs.Post.ReadingBack
import Booru.Proofs.Retry.Hints
import Booru.Proofs.Search.SessionBlacklist
import Booru.Proofs.Blacklist.Firing
import Booru.Proofs.Blacklist.Filtering
import Booru.Proofs.Decimal.Packing
import Booru.Proofs.RunLog.History
import Booru.Proofs.Blacklist.Capitals
import Booru.Proofs.Blacklist.FoldedNames
import Booru.Proofs.Collection.Cleaning
import Booru.Proofs.Collection.Listing
import Booru.Proofs.Settings.Loading
import Booru.Proofs.Client.Requests
import Booru.Proofs.Settings.NormalForm
import Booru.Proofs.Search.Exhausting

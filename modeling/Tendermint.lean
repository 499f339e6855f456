import Tendermint.Lib.Lex
import Tendermint.Lib.Run
import Tendermint.Lib.Except
import Tendermint.Lib.Varint
import Tendermint.Types.Basic
import Tendermint.Types.Validator
import Tendermint.Types.ValidatorSet
import Tendermint.Types.ValidatorSetChanges
import Tendermint.Types.ValidatorSetInvariant
import Tendermint.Types.ProposerPriority
import Tendermint.Types.ValidatorSetPanics
import Tendermint.Types.ProposerSelection
import Tendermint.Types.Vote
import Tendermint.Lib.BitMask
import Tendermint.Types.VoteSet
import Tendermint.Types.VoteSetInvariant
import Tendermint.Types.Commit
import Tendermint.Types.VoteSetVotes
import Tendermint.Types.CommitRoundTrip
import Tendermint.Privval.FilePV
import Tendermint.Libs.Bits
import Tendermint.Consensus.PeerState
import Tendermint.Crypto.Merkle
import Tendermint.Lib.TextCodec
import Tendermint.Crypto.KeyPath
import Tendermint.Crypto.ProofOp
import Tendermint.Types.PartSet
import Tendermint.Consensus.Proposal
import Tendermint.Mempool.CListMempool
import Tendermint.Libs.CList
import Tendermint.Lib.Bufio
import Tendermint.Libs.Autofile
import Tendermint.State.Execution
import Tendermint.State.Store
import Tendermint.Types.Block
import Tendermint.Types.CommitVerify
import Tendermint.State.MedianTime
import Tendermint.Types.Evidence
import Tendermint.Evidence.Pool
import Tendermint.Light.Store
import Tendermint.Light.Verifier
import Tendermint.Light.Client
import Tendermint.Light.Backwards
import Tendermint.Light.Rpc
import Tendermint.Lib.Channel
import Tendermint.Light.Witnesses
import Tendermint.P2p.SecretConnection
import Tendermint.P2p.Connection
import Tendermint.Lib.GoMap
import Tendermint.Blockchain.Scheduler
import Tendermint.Blockchain.SchedulerInvariant
import Tendermint.Libs.Query
import Tendermint.State.TxIndex
import Tendermint.Blockchain.Pool
import Tendermint.Blockchain.PoolInvariant
import Tendermint.Statesync.Snapshots
import Tendermint.Statesync.Chunks
import Tendermint.Store.BlockStore
import Tendermint.Abci.SocketClient
import Tendermint.Libs.Pubsub
import Tendermint.P2p.Switch
import Tendermint.P2p.AddrBook
import Tendermint.Blockchain.BpPool
import Tendermint.Blockchain.ReactorFSM
import Tendermint.Consensus.HeightVoteSet
import Tendermint.Consensus.State
import Tendermint.Consensus.Polkas
import Tendermint.Consensus.RoundProgress
